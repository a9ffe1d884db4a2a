import DatasetGrid.Number.Notation

/-!
# Values of a settings document

What a document says once it is read. Floating-point numbers and dates have no place in the
settings, so nothing of them is kept.
-/
namespace DatasetGrid.Toml

attribute [local instance (2000)] instPowNat

inductive Value where
  | text (s : String)
  | integer (n : Int)
  | boolean (b : Bool)
  | real
  | moment
  | list (items : List Value)
  | record (entries : List (String × Value))
  deriving Inhabited

/-- A count: an integer from zero up to 64 bits. -/
def Value.count? : Value → Option Nat
  | .integer n => if 0 ≤ n ∧ n < 2 ^ (64 : Nat) then some n.toNat else none
  | _ => none

def Value.boolean? : Value → Option Bool
  | .boolean b => some b
  | _ => none

end DatasetGrid.Toml

namespace DatasetGrid

open Number Toml

/-- A number format is a record tagged by its kind, in which other entries are ignored, or a list of
the kind and its one argument. -/
def Number.NumberFormat.ofValue? : Value → Option NumberFormat
  | .record entries =>
    match entries.lookup "kind" with
    | some (.text "plain") => some .plain
    | some (.text "scientific") =>
      ((entries.lookup "precision").bind Value.count?).map .scientific
    | some (.text "fixed") => ((entries.lookup "decimals").bind Value.count?).map .fixed
    | _ => none
  | .list [.text "plain"] => some .plain
  | .list [.text "scientific", argument] => argument.count?.map .scientific
  | .list [.text "fixed", argument] => argument.count?.map .fixed
  | _ => none

end DatasetGrid
