import DatasetGrid.Editor.Render
import DatasetGrid.Proofs.Build
import DatasetGrid.Proofs.Tokens
import DatasetGrid.Proofs.WellTyped

/-! # Values listed side by side

An entry is a value shown in a list, with the tokens that its text takes there and from which its
editor reads it again. Entries side by side are cut apart by their counts of tokens and read one
after the other.
-/
namespace DatasetGrid

open Token

section Pieces

variable {α β : Type}

theorem length_flatMap_uniform {f : α → List β} {n : Nat} {xs : List α}
    (h : ∀ x ∈ xs, (f x).length = n) : (xs.flatMap f).length = xs.length * n := by
  induction xs with
  | nil => rw [List.flatMap_nil, List.length_nil, List.length_nil, Nat.zero_mul]
  | cons x rest ih =>
    rw [List.flatMap_cons, List.length_append, h x List.mem_cons_self,
      ih fun x hx => h x (List.mem_cons_of_mem _ hx), List.length_cons, Nat.add_mul, Nat.one_mul,
      Nat.add_comm]

theorem pieces_flatMap {f : α → List β} {n : Nat} {xs : List α} (h : ∀ x ∈ xs, (f x).length = n) :
    pieces n xs.length (xs.flatMap f) = xs.map f := by
  induction xs with
  | nil => rfl
  | cons x rest ih =>
    have hx := h x List.mem_cons_self
    rw [List.length_cons, List.flatMap_cons, pieces, List.take_left' hx, List.drop_left' hx,
      ih fun x hx => h x (List.mem_cons_of_mem _ hx), List.map_cons]

theorem length_pieces (length count : Nat) (xs : List α) :
    (pieces length count xs).length = count := by
  induction count generalizing xs with
  | zero => rfl
  | succ count ih => rw [pieces, List.length_cons, ih]

theorem chunks_eq_pieces {n count : Nat} {xs : List α} (hn : 0 < n) (h : xs.length = count * n) :
    chunks n xs = pieces n count xs := by
  have hcount : (count * n + n - 1) / n = count := by
    rw [Nat.add_sub_assoc hn, Nat.mul_comm, Nat.mul_add_div hn, Nat.div_eq_of_lt (by omega),
      Nat.add_zero]
  rw [chunks, h, hcount]

theorem chunks_flatMap {f : α → List β} {n : Nat} {xs : List α} (hn : 0 < n)
    (h : ∀ x ∈ xs, (f x).length = n) : chunks n (xs.flatMap f) = xs.map f := by
  rw [chunks_eq_pieces hn (length_flatMap_uniform h), pieces_flatMap h]

end Pieces

theorem checkExactly_eq_ok {expected found : Nat} :
    checkExactly expected found = .ok () ↔ found = expected := by
  rw [checkExactly]
  split <;> simp_all

/-- A value shown in a list, by one token at least and by no more than it has parts. -/
structure Entry where
  editor : Editor
  text : String
  value : Cell
  tokens : List (List Char)
  lists : Lists text.toList tokens
  tokens_ne_nil : tokens ≠ []
  length_tokens : tokens.length = editor.tokens
  length_tokens_le : tokens.length ≤ value.extent
  reads : editor.parseElement (tokens.map String.ofList) = .ok value

/-- The text shows the value as an entry of lists. -/
def Editor.Shows (editor : Editor) (text : String) (value : Cell) : Prop :=
  ∃ entry : Entry, entry.editor = editor ∧ entry.text = text ∧ entry.value = value

namespace Entry

def join (entries : List Entry) : String :=
  ", ".intercalate (entries.map (·.text))

def words (entries : List Entry) : List String :=
  (entries.flatMap (·.tokens)).map String.ofList

theorem words_cons (entry : Entry) (entries : List Entry) :
    words (entry :: entries) = entry.tokens.map String.ofList ++ words entries := by
  rw [words, List.flatMap_cons, List.map_append, words]

theorem lists_join (entries : List Entry) :
    Lists (join entries).toList (entries.flatMap (·.tokens)) :=
  .commas fun entry _ => entry.lists

/-- The tokens of a list are no more than its values have parts. -/
theorem length_words_le (entries : List Entry) :
    (words entries).length ≤ Cell.extents (entries.map (·.value)) := by
  induction entries with
  | nil => exact Nat.le_refl 0
  | cons entry rest ih =>
    rw [words_cons, List.length_append, List.length_map, List.map_cons, Cell.extents]
    exact Nat.add_le_add entry.length_tokens_le ih

theorem totalTokens_eq {entries : List Entry} (h : (words entries).length < wordCount) :
    Editor.totalTokens (entries.map (·.editor)) = (words entries).length := by
  induction entries with
  | nil => rfl
  | cons entry rest ih =>
    rw [words_cons, List.length_append, List.length_map, entry.length_tokens] at h ⊢
    rw [List.map_cons, Editor.totalTokens, ih (by omega), wrapped_of_lt h]

theorem width_eq (entry : Entry) : entry.editor.width = entry.tokens.length := by
  have hpos := List.length_pos_of_ne_nil entry.tokens_ne_nil
  rw [Editor.width, ← entry.length_tokens, Nat.max_eq_left hpos]

theorem length_words {editor : Editor} {entries : List Entry}
    (heditor : ∀ entry ∈ entries, entry.editor = editor) :
    (words entries).length = entries.length * editor.width := by
  rw [words, List.length_map]
  apply length_flatMap_uniform
  intro entry hentry
  rw [← entry.width_eq, heditor entry hentry]

/-- Members take their tokens from the front, one after the other. -/
theorem parseMembers_words (entries : List Entry) (total : Nat) {found offset : Nat}
    (h : found = offset + (words entries).length) :
    Editor.parseMembers total found offset (entries.map (·.editor)) (words entries) =
      .ok (entries.map (·.value)) := by
  induction entries generalizing offset with
  | nil =>
    obtain rfl : found = offset := h
    simp only [List.map_nil, Editor.parseMembers, checkExactly, if_true]
    rfl
  | cons entry rest ih =>
    -- The offset and what is left always make up the tokens found.
    have hlength : (entry.tokens.map String.ofList).length = entry.editor.tokens := by
      rw [List.length_map, entry.length_tokens]
    rw [words_cons, List.length_append, hlength] at h
    rw [List.map_cons, words_cons, Editor.parseMembers, List.length_append, hlength,
      if_neg (by omega), List.take_left' hlength, List.drop_left' hlength, entry.reads,
      ih (by omega)]
    rfl

theorem parseEach_words {editor : Editor} {entries : List Entry}
    (heditor : ∀ entry ∈ entries, entry.editor = editor) (width start : Nat) :
    parseEach editor.parseElement width start
        (entries.map fun entry => entry.tokens.map String.ofList) =
      .ok (entries.map (·.value)) := by
  induction entries generalizing start with
  | nil => rfl
  | cons entry rest ih =>
    have hreads : editor.parseElement (entry.tokens.map String.ofList) = .ok entry.value :=
      heditor entry List.mem_cons_self ▸ entry.reads
    rw [List.map_cons, parseEach, hreads,
      ih fun entry h => heditor entry (List.mem_cons_of_mem _ h)]
    rfl

theorem parseList_words {editor : Editor} {entries : List Entry} (expected : Option Nat)
    (heditor : ∀ entry ∈ entries, entry.editor = editor)
    (hexpected : ∀ count, expected = some count → count = entries.length * editor.width) :
    parseList expected editor.width editor.parseElement (words entries) =
      .ok (.array (entries.map (·.value))) := by
  have hlengths : ∀ entry ∈ entries, (entry.tokens.map String.ofList).length = editor.width := by
    intro entry h
    rw [List.length_map, ← entry.width_eq, heditor entry h]
  have hwords : words entries = entries.flatMap fun entry => entry.tokens.map String.ofList := by
    rw [words, List.map_flatMap]
  have hcount : checkCount expected editor.width (words entries).length = .ok () := by
    rw [length_words heditor]
    cases expected with
    | none => rw [checkCount, if_pos (Nat.mul_mod_left _ _)]
    | some count => rw [checkCount, checkExactly, if_pos (hexpected count rfl).symm]
  rw [parseList, hcount, hwords, chunks_flatMap editor.width_pos hlengths,
    parseEach_words heditor]
  rfl

/-- An array reads its elements back where a word can count all their tokens. -/
theorem parseList_array {base : Datatype} {dims : List Nat} {entries : List Entry}
    (heditor : ∀ entry ∈ entries, entry.editor = .build .all base)
    (hlength : entries.length = arrayOrder dims)
    (hcount : (words entries).length < wordCount) :
    parseList (Editor.expectedTokens? base dims (.build .all base)) (Editor.build .all base).width
      (Editor.build .all base).parseElement (words entries) =
        .ok (.array (entries.map (·.value))) := by
  rw [length_words heditor] at hcount
  apply parseList_words _ heditor
  intro count h
  rw [Editor.expectedTokens?_eq h, ← hlength, wrapped_of_lt hcount]

end Entry

end DatasetGrid
