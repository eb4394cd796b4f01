import CodeAtlas.Distinct
import CodeAtlas.Json.Reader

/-! The grammar of JSON as a relation between texts and values, without a word about how a text is
read. Beyond the standard there are `NaN`, `Infinity` and `-Infinity`, and the last of several
values of one name counts. A string is a sequence of UTF-16 units, each by itself. How many figures
an integer may have and how deep lists and objects may be nested are parameters. -/
namespace CodeAtlas.Json

def Blank (text : List Char) : Prop := ∀ c ∈ text, c ∈ [' ', '\t', '\n', '\r']

/-! Strings. -/

def HexFigure (c : Char) (n : Nat) : Prop :=
  "0123456789abcdef".toList[n]? = some c ∨ "0123456789ABCDEF".toList[n]? = some c

inductive UnitText : List Char → Nat → Prop
  | mk {a b c d : Char} {i j k l : Nat} : HexFigure a i → HexFigure b j → HexFigure c k →
      HexFigure d l → UnitText [a, b, c, d] (((i * 16 + j) * 16 + k) * 16 + l)

def escapes : List (Char × Char) :=
  [('"', '"'), ('\\', '\\'), ('/', '/'), ('b', '\u0008'), ('f', '\u000c'), ('n', '\n'),
    ('r', '\r'), ('t', '\t')]

/-- The piece of a string stands for these units. -/
inductive Piece : List Char → Units → Prop
  | plain {c : Char} : 0x20 ≤ c.toNat → c ≠ '"' → c ≠ '\\' → Piece [c] (charUnits c)
  | letter {l c : Char} : (l, c) ∈ escapes → Piece ['\\', l] (charUnits c)
  | unit {figures : List Char} {n : Nat} : UnitText figures n →
      Piece ('\\' :: 'u' :: figures) [.ofNat n]

/-- What stands between the quotes of a string, and its units. -/
inductive Body : List Char → Units → Prop
  | nil : Body [] []
  | cons {piece text : List Char} {part rest : Units} : Piece piece part → Body text rest →
      Body (piece ++ text) (part ++ rest)

/-! Numbers. -/

def Figures (text : List Char) : Prop := text ≠ [] ∧ ∀ c ∈ text, c.isDigit = true

def Whole (text : List Char) : Prop := text = ['0'] ∨ (Figures text ∧ text.head? ≠ some '0')

inductive Fraction : List Char → List Char → Prop
  | none : Fraction [] []
  | some {figures : List Char} : Figures figures → Fraction ('.' :: figures) figures

def signs : List (List Char × Int) := [([], 1), (['+'], 1), (['-'], -1)]

inductive Exponent : List Char → Option Int → Prop
  | none : Exponent [] none
  | some {mark : Char} {sign figures : List Char} {unit : Int} : mark ∈ ['e', 'E'] →
      (sign, unit) ∈ signs → Figures figures →
      Exponent (mark :: (sign ++ figures)) (some (unit * digitsValue figures))

/-- A number behind its sign is an integer, of not more than `most` figures, unless it has a
fraction or an exponent. -/
inductive Unsigned (most : Nat) (negative : Bool) : List Char → Written → Prop
  | whole {figures : List Char} : Whole figures → figures.length ≤ most →
      Unsigned most negative figures
        (.int (if negative then -(digitsValue figures : Int) else digitsValue figures))
  | real {figures point fraction mark : List Char} {exponent : Option Int} : Whole figures →
      Fraction point fraction → Exponent mark exponent → point ++ mark ≠ [] →
      Unsigned most negative (figures ++ (point ++ mark))
        (.real (.ofDecimal negative (digitsValue (figures ++ fraction))
          (exponent.getD 0 - fraction.length)))

inductive Number (most : Nat) : List Char → Written → Prop
  | plain {text : List Char} {value : Written} : Unsigned most false text value →
      Number most text value
  | minus {text : List Char} {value : Written} : Unsigned most true text value →
      Number most ('-' :: text) value

/-! Values. -/

def words : List (String × Written) :=
  [("null", .null), ("true", .bool true), ("false", .bool false)]

def constants : List (String × Written) :=
  [("NaN", .real .notANumber), ("Infinity", .real (.infinite false)),
    ("-Infinity", .real (.infinite true))]

/-- Of several values of one name the last one counts, at the place of the first. -/
structure Settled (members fields : List (Units × Written)) : Prop where
  names : fields.map Prod.fst = distinct (members.map Prod.fst)
  values : ∀ name, valueOf? name fields = valueOf? name members.reverse

/-- What a text may hold: the most figures of an integer, and how many levels of nesting one of the
constants needs below it. -/
structure Bounds where
  figures : Nat
  constant : Nat

/-- What a text may hold so that a reader with these calls takes it. -/
def Stack.bounds (stack : Stack) : Bounds := ⟨maxFigures, stack.constant⟩

mutual

/-- The text of a value with at most so many levels of lists and objects, without blanks around
it. -/
inductive Value (bounds : Bounds) : Nat → List Char → Written → Prop
  | word {levels : Nat} {word : String} {value : Written} : (word, value) ∈ words →
      Value bounds levels word.toList value
  | constant {levels : Nat} {word : String} {value : Written} : (word, value) ∈ constants →
      bounds.constant ≤ levels → Value bounds levels word.toList value
  | string {levels : Nat} {text : List Char} {units : Units} : Body text units →
      Value bounds levels ('"' :: (text ++ ['"'])) (.text units)
  | number {levels : Nat} {text : List Char} {value : Written} :
      Number bounds.figures text value → Value bounds levels text value
  | emptyList {levels : Nat} {blank : List Char} : Blank blank →
      Value bounds (levels + 1) ('[' :: (blank ++ [']'])) (.list [])
  | list {levels : Nat} {text : List Char} {items : List Written} :
      Elements bounds levels text items →
      Value bounds (levels + 1) ('[' :: (text ++ [']'])) (.list items)
  | emptyObject {levels : Nat} {blank : List Char} : Blank blank →
      Value bounds (levels + 1) ('{' :: (blank ++ ['}'])) (.object [])
  | object {levels : Nat} {text : List Char} {members fields : List (Units × Written)} :
      Members bounds levels text members → Settled members fields →
      Value bounds (levels + 1) ('{' :: (text ++ ['}'])) (.object fields)

inductive Element (bounds : Bounds) : Nat → List Char → Written → Prop
  | mk {levels : Nat} {before text after : List Char} {value : Written} : Blank before →
      Value bounds levels text value → Blank after →
      Element bounds levels (before ++ (text ++ after)) value

inductive Elements (bounds : Bounds) : Nat → List Char → List Written → Prop
  | one {levels : Nat} {text : List Char} {item : Written} : Element bounds levels text item →
      Elements bounds levels text [item]
  | more {levels : Nat} {text rest : List Char} {item : Written} {items : List Written} :
      Element bounds levels text item → Elements bounds levels rest items →
      Elements bounds levels (text ++ ',' :: rest) (item :: items)

inductive Member (bounds : Bounds) : Nat → List Char → Units × Written → Prop
  | mk {levels : Nat} {before text after rest : List Char} {name : Units} {value : Written} :
      Blank before → Body text name → Blank after → Element bounds levels rest value →
      Member bounds levels (before ++ '"' :: (text ++ '"' :: (after ++ ':' :: rest))) (name, value)

inductive Members (bounds : Bounds) : Nat → List Char → List (Units × Written) → Prop
  | one {levels : Nat} {text : List Char} {member : Units × Written} :
      Member bounds levels text member → Members bounds levels text [member]
  | more {levels : Nat} {text rest : List Char} {member : Units × Written}
      {members : List (Units × Written)} : Member bounds levels text member →
      Members bounds levels rest members →
      Members bounds levels (text ++ ',' :: rest) (member :: members)

end

/-- The text is that of a value with at most so many levels, with blanks around it and nothing
else. -/
def IsText (bounds : Bounds) (levels : Nat) (value : Written) (text : String) : Prop :=
  Element bounds levels text.toList value

end CodeAtlas.Json
