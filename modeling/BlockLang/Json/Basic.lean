import BlockLang.Number.Shortest
import BlockLang.Table
import BlockLang.Text.LooseText

/-!
# JSON values

Values of the data format, with integers and reals kept apart and the members of an object in
order. Texts are loose, since the format can spell half a surrogate pair. `describe` is the form in
which a value is quoted in a message.
-/

namespace BlockLang

open BlockLang.Number BlockLang.Text

/-- A JSON value. -/
inductive Json where
  | null
  | bool (b : Bool)
  | int (n : Int)
  | real (x : Real64)
  | text (s : LooseText)
  | array (items : List Json)
  | object (members : List (LooseText × Json))
  deriving Inhabited

namespace Json

/-- The member of an object under the name `k`. -/
def get? (k : String) : Json → Option Json
  | object members => Table.find? (.ofString k) members
  | _ => none

mutual

/-- A value as it is quoted in a message: words for the constants, texts in quotes. -/
def describe : Json → String
  | null => "None"
  | bool b => if b then "True" else "False"
  | int n => toString n
  | real x => x.text
  | text s => s.quoted
  | array items => "[" ++ ", ".intercalate (describeItems items) ++ "]"
  | object members => "\x7b" ++ ", ".intercalate (describeMembers members) ++ "\x7d"

/-- The items of an array, each as it is quoted in a message. -/
def describeItems : List Json → List String
  | [] => []
  | item :: items => item.describe :: describeItems items

/-- The members of an object, each as it is quoted in a message. -/
def describeMembers : List (LooseText × Json) → List String
  | [] => []
  | (k, v) :: members => (k.quoted ++ ": " ++ v.describe) :: describeMembers members

end

/-- A value as it stands in a message of its own: a text without quotes, all else quoted. -/
def plain : Json → LooseText
  | text s => s
  | v => v.describe

mutual

/-- A value with every text in it changed by `f`; the names of members stay. -/
def mapTexts (f : LooseText → LooseText) : Json → Json
  | text s => text (f s)
  | array items => array (mapItems f items)
  | object members => object (mapMembers f members)
  | v => v

/-- The items of an array, each with its texts changed. -/
def mapItems (f : LooseText → LooseText) : List Json → List Json
  | [] => []
  | item :: items => item.mapTexts f :: mapItems f items

/-- The members of an object, each with the texts of its value changed. -/
def mapMembers (f : LooseText → LooseText) : List (LooseText × Json) → List (LooseText × Json)
  | [] => []
  | (k, v) :: members => (k, v.mapTexts f) :: mapMembers f members

end

/-- The number a value stands for as an integer over a power of two; a truth value is 0 or 1. -/
def number? : Json → Option (Int × Nat)
  | bool b => some (if b then 1 else 0, 1)
  | int n => some (n, 1)
  | real x => x.toRatio?
  | _ => none

mutual

/-- Do two values count as the same key? Numbers and truth values are compared by what they are
worth, lists item by item. -/
def same : Json → Json → Bool
  | null, null => true
  | text s, text t => s == t
  | array xs, array ys => sameItems xs ys
  | real (.infinite s), real (.infinite t) => s == t
  | x, y => match x.number?, y.number? with
    | some (a, b), some (c, d) => a * d == c * b
    | _, _ => false

/-- Are two lists of the same length with the same keys in their places? -/
def sameItems : List Json → List Json → Bool
  | [], [] => true
  | x :: xs, y :: ys => x.same y && sameItems xs ys
  | _, _ => false

end

instance : BEq Json := ⟨same⟩

end Json

end BlockLang
