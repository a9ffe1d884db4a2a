/-!
# Words between separators
-/
namespace DatasetGrid.Text

def pendingWord (current : List Char) : List (List Char) :=
  if current = [] then [] else [current]

def wordsFrom (separates : Char → Bool) (current : List Char) : List Char → List (List Char)
  | [] => pendingWord current
  | c :: rest =>
    if separates c then pendingWord current ++ wordsFrom separates [] rest
    else wordsFrom separates (current ++ [c]) rest

/-- The longest runs of characters that do not separate, in order. -/
def words (separates : Char → Bool) (cs : List Char) : List (List Char) :=
  wordsFrom separates [] cs

example : words (· = ',') ",ab,,c".toList = ["ab".toList, "c".toList] := by decide +kernel

end DatasetGrid.Text
