import CodeAtlas.Error
import CodeAtlas.Text.Words

/-! The markup of console messages. Styles stand in square brackets and do not show; a backslash
keeps a bracket. Only what looks like a style is one: a letter in lower case or one of `#/@` must
follow the bracket. -/

namespace CodeAtlas.Command

open CodeAtlas.Text

def beginsStyle (c : Char) : Bool :=
  ('a' ≤ c && c ≤ 'z') || c == '#' || c == '/' || c == '@'

/-- The text of the style whose bracket was opened before `text`, and what follows it. -/
def styleHere? (text : List Char) : Option (List Char × List Char) :=
  match text with
  | [] => none
  | first :: _ =>
    let body := text.takeWhile fun c => c != '[' && c != ']'
    match text.drop body.length with
    | ']' :: rest => if beginsStyle first then some (body, rest) else none
    | _ => none

inductive Stretch where
  | plain (text : List Char)
  /-- Text between brackets that a backslash keeps. -/
  | kept (text : List Char)
  | style (text : List Char)

/-- Divides a text into stretches; `before` holds the plain characters not yet put into one,
reversed. -/
def stretches : Nat → List Char → List Char → List Stretch
  | 0, before, _ => [.plain before.reverse]
  | _ + 1, before, [] => [.plain before.reverse]
  | fuel + 1, before, c :: rest =>
    let slashes := ((c :: rest).takeWhile (· == '\\')).length
    match (c :: rest).drop slashes with
    | '[' :: inside =>
      match styleHere? inside with
      | some (body, after) =>
        let found : List Stretch :=
          if slashes % 2 = 1 then [.kept ('[' :: body ++ [']'])] else [.style body]
        .plain before.reverse :: .kept (List.replicate (slashes / 2) '\\') :: found
          ++ stretches fuel [] after
      | none => stretches fuel (c :: before) rest
    | _ => stretches fuel (c :: before) rest

def withoutBracketEscapes : List Char → List Char
  | '\\' :: '[' :: rest => '[' :: withoutBracketEscapes rest
  | c :: rest => c :: withoutBracketEscapes rest
  | [] => []

def styleName (text : List Char) : List Char :=
  lower (stripEnds isBlank (text.takeWhile (· != '=')))

/-- The visible text of stretches; `opened` holds the styles that are open, the last one first. A
closing style must have an opening one. -/
def visible (opened : List (List Char)) : List Stretch → Except Error (List Char)
  | [] => .ok []
  | .plain text :: rest => return withoutBracketEscapes text ++ (← visible opened rest)
  | .kept text :: rest => return text ++ (← visible opened rest)
  | .style ('/' :: name) :: rest =>
    let name := styleName name
    if name.isEmpty then
      if opened.isEmpty then .error .unbalancedMarkup else visible opened.tail rest
    else if opened.contains name then visible (opened.erase name) rest
    else .error .unbalancedMarkup
  | .style name :: rest => visible (styleName name :: opened) rest

def shown (message : String) : Except Error String :=
  if message.toList.contains '[' then
    (visible [] (stretches (message.length + 1) [] message.toList)).map String.ofList
  else .ok message

end CodeAtlas.Command
