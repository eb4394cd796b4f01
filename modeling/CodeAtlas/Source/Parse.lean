import CodeAtlas.Source.Grammar.Statements

/-! Parsing a whole source text. A statement that cannot be read costs one token and reading goes
on, so every text has a tree. -/

namespace CodeAtlas.Source

def Grammar.rule (g : Rules) : Goal → Parser Tree
  | .statement => statement g
  | .block => block g
  | .expression noIn => expression g noIn
  | .assignment noIn typedArrows => assignmentRule g noIn typedArrows
  | .operand => operand g
  | .arguments => arguments g
  | .creation => creation g
  | .binding => binding g
  | .parameters => parameters g
  | .type => type g
  | .markup => markup g

def Grammar.parser (dialect : Dialect) : Nat → Goal → Parser Tree
  | 0, _ => failure
  | depth + 1, goal => rule ⟨dialect, Grammar.parser dialect depth⟩ goal

/-- Reads statements to the end of the text; what is no statement is passed over token by token. -/
def statements (read : Parser Tree) : Nat → Cursor → List Tree
  | 0, _ => []
  | fuel + 1, cursor =>
    let here := cursor.skipped
    if here.rest.isEmpty then []
    else match read.run here with
      | some (tree, after) =>
        if after.left < here.left then tree :: statements read fuel after
        else statements read fuel (here.advance 1)
      | none => statements read fuel (here.advance (max 1 (wordAt here.rest).length))

def parse (dialect : Dialect) (source : String) : Tree :=
  let start := Cursor.ofText source
  let first := match start.rest with
    | '#' :: '!' :: _ => start.advance (start.rest.takeWhile fun c => !isLineEnd c).length
    | _ => start
  let depth := 8 * start.left + 64
  .node .program .none source
    (statements (Grammar.parser dialect depth .statement) (start.left + 1) first)

end CodeAtlas.Source
