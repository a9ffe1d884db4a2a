import DatasetGrid.Editor.Token
import Mathlib.Data.List.Forall2

/-! # Texts made of tokens

A text lists its tokens when they come out in front of whatever follows it. Words, groups in
parentheses, texts side by side and texts in brackets list what their parts list.
-/
namespace DatasetGrid.Token

open Text

inductive Balanced : List Char → Prop
  | nil : Balanced []
  | char (c : Char) (rest : List Char) : c ≠ '(' → c ≠ ')' → Balanced rest → Balanced (c :: rest)
  | group (inner rest : List Char) : Balanced inner → Balanced rest →
      Balanced ('(' :: (inner ++ ')' :: rest))

namespace Balanced

variable {cs ds : List Char}

theorem of_forall (h : ∀ c ∈ cs, c ≠ '(' ∧ c ≠ ')') : Balanced cs := by
  induction cs with
  | nil => exact .nil
  | cons c rest ih =>
    rcases h c List.mem_cons_self with ⟨hopen, hclose⟩
    exact .char c rest hopen hclose (ih fun c hc => h c (List.mem_cons_of_mem _ hc))

theorem append (h : Balanced cs) (hds : Balanced ds) : Balanced (cs ++ ds) := by
  induction h with
  | nil => exact hds
  | char c rest hopen hclose _ ih => exact .char c _ hopen hclose ih
  | group inner rest hinner _ _ ih =>
    have hgroup := Balanced.group inner (rest ++ ds) hinner ih
    simpa using hgroup

theorem parenthesized (h : Balanced cs) : Balanced ('(' :: (cs ++ [')'])) :=
  .group cs [] h .nil

/-- Inside a group a balanced text joins the token under way. -/
theorem tokensFrom (h : Balanced cs) (depth : Nat) (current rest : List Char) :
    tokensFrom (depth + 1) current (cs ++ rest) = tokensFrom (depth + 1) (current ++ cs) rest := by
  induction h generalizing depth current rest with
  | nil => rw [List.append_nil, List.nil_append]
  | char c tail hopen hclose _ ih =>
    rw [List.cons_append, Token.tokensFrom, if_pos (Nat.succ_pos depth), nextDepth, if_neg hopen,
      if_neg hclose, ih, List.append_assoc, List.singleton_append]
  | group inner tail _ _ ihinner ihtail =>
    -- The inner group is read one level deeper and leads back to this one.
    have hopens : nextDepth (depth + 1) '(' = depth + 1 + 1 := rfl
    have hcloses : nextDepth (depth + 1 + 1) ')' = depth + 1 := rfl
    rw [List.cons_append, Token.tokensFrom, if_pos (Nat.succ_pos depth), hopens, List.append_assoc,
      ihinner, List.cons_append, Token.tokensFrom, if_pos (Nat.succ_pos _), hcloses, ihtail]
    simp

theorem splitClosing? (h : Balanced cs) (depth : Nat) (rest : List Char) :
    splitClosing? depth (cs ++ rest) =
      (splitClosing? depth rest).map fun parts => (cs ++ parts.1, parts.2) := by
  induction h generalizing depth rest with
  | nil => simp
  | char c tail hopen hclose _ ih =>
    rw [List.cons_append, Token.splitClosing?, if_neg hclose, if_neg hopen, ih]
    simp [Function.comp_def]
  | group inner tail _ _ ihinner ihtail =>
    rw [List.cons_append, Token.splitClosing?, if_neg (by decide), if_pos rfl, List.append_assoc,
      ihinner, List.cons_append, Token.splitClosing?, if_pos rfl, if_neg (by omega),
      Nat.add_sub_cancel, ihtail]
    simp [Function.comp_def]

end Balanced

def Stops : List Char → Prop
  | [] => True
  | c :: _ => isDelimiter c = true

/-- The text puts these tokens in front of those of any text behind it. -/
structure Lists (cs : List Char) (ts : List (List Char)) : Prop where
  balanced : Balanced cs
  inFront : ∀ rest, Stops rest → tokensFrom 0 [] (cs ++ rest) = ts ++ tokensFrom 0 [] rest

/-- What may stand between tokens: delimiters other than parentheses, one at least. -/
def Separates (cs : List Char) : Prop :=
  cs ≠ [] ∧ ∀ c ∈ cs, isDelimiter c = true ∧ c ≠ ')'

/-- A text that stands in a list as one token, no group in it. -/
def isWord (cs : List Char) : Bool :=
  !cs.isEmpty && cs.all fun c => !isDelimiter c && c != '('

theorem not_open_of_isDelimiter {c : Char} (h : isDelimiter c = true) : c ≠ '(' := by
  rintro rfl
  revert h
  decide

theorem tokensFrom_delimiter {c : Char} (h : isDelimiter c = true) (current rest : List Char) :
    tokensFrom 0 current (c :: rest) = pendingWord current ++ tokensFrom 0 [] rest := by
  rw [tokensFrom, if_neg (Nat.lt_irrefl 0), if_neg (not_open_of_isDelimiter h), if_pos h]

theorem tokensFrom_delimiters {cs : List Char} (h : ∀ c ∈ cs, isDelimiter c = true)
    (rest : List Char) : tokensFrom 0 [] (cs ++ rest) = tokensFrom 0 [] rest := by
  induction cs with
  | nil => rfl
  | cons c tail ih =>
    rw [List.cons_append, tokensFrom_delimiter (h c List.mem_cons_self)]
    exact ih fun c hc => h c (List.mem_cons_of_mem _ hc)

theorem tokensFrom_word {cs : List Char} (h : ∀ c ∈ cs, isDelimiter c = false ∧ c ≠ '(')
    (current rest : List Char) :
    tokensFrom 0 current (cs ++ rest) = tokensFrom 0 (current ++ cs) rest := by
  induction cs generalizing current with
  | nil => rw [List.append_nil, List.nil_append]
  | cons c tail ih =>
    rcases h c List.mem_cons_self with ⟨hdelimiter, hopen⟩
    rw [List.cons_append, tokensFrom, if_neg (Nat.lt_irrefl 0), if_neg hopen,
      if_neg (by rw [hdelimiter]; exact Bool.false_ne_true),
      ih fun c hc => h c (List.mem_cons_of_mem _ hc), List.append_assoc, List.singleton_append]

theorem tokensFrom_stops {current rest : List Char} (hcurrent : current ≠ []) (h : Stops rest) :
    tokensFrom 0 current rest = [current] ++ tokensFrom 0 [] rest := by
  cases rest with
  | nil => simp [tokensFrom, pendingWord, hcurrent]
  | cons c tail =>
    rw [tokensFrom_delimiter h, tokensFrom_delimiter h]
    simp [pendingWord, hcurrent]

namespace Separates

variable {sep : List Char}

theorem balanced (h : Separates sep) : Balanced sep :=
  .of_forall fun c hc => ⟨not_open_of_isDelimiter (h.2 c hc).1, (h.2 c hc).2⟩

theorem stops (h : Separates sep) (rest : List Char) : Stops (sep ++ rest) := by
  cases sep with
  | nil => exact absurd rfl h.1
  | cons c tail => exact (h.2 c List.mem_cons_self).1

theorem blank : Separates [' '] := by
  refine ⟨List.cons_ne_nil _ _, fun c hc => ?_⟩
  rw [List.mem_singleton.mp hc]
  decide

theorem comma : Separates [',', ' '] := by
  refine ⟨List.cons_ne_nil _ _, fun c hc => ?_⟩
  simp only [List.mem_cons, List.not_mem_nil, or_false] at hc
  rcases hc with rfl | rfl <;> decide

end Separates

namespace Lists

variable {cs ds sep : List Char} {ts us : List (List Char)}

theorem tokens_eq (h : Lists cs ts) : tokens cs = ts := by
  have hend := h.inFront [] trivial
  rw [List.append_nil] at hend
  rw [tokens, hend, tokensFrom, pendingWord, if_pos rfl, List.append_nil]

theorem nil : Lists [] [] where
  balanced := .nil
  inFront _ _ := rfl

theorem word (h : isWord cs = true) : Lists cs [cs] := by
  simp only [isWord, Bool.and_eq_true, Bool.not_eq_true', List.isEmpty_eq_false_iff,
    List.all_eq_true, bne_iff_ne] at h
  rcases h with ⟨hne, hchars⟩
  refine ⟨Balanced.of_forall fun c hc => ⟨(hchars c hc).2, ?_⟩, fun rest hrest => ?_⟩
  · rintro rfl
    have hclose := (hchars ')' hc).1
    revert hclose
    decide
  · rw [tokensFrom_word hchars, List.nil_append, tokensFrom_stops hne hrest]

theorem group (h : Balanced cs) : Lists ('(' :: (cs ++ [')'])) ['(' :: (cs ++ [')'])] where
  balanced := h.parenthesized
  inFront rest hrest := by
    have hcloses : nextDepth 1 ')' = 0 := rfl
    rw [List.cons_append, List.append_assoc, tokensFrom, if_neg (Nat.lt_irrefl 0), if_pos rfl,
      h.tokensFrom, List.singleton_append, tokensFrom, if_pos Nat.zero_lt_one, hcloses,
      tokensFrom_stops (by simp) hrest]
    simp

theorem append (h : Lists cs ts) (hsep : Separates sep) (hds : Lists ds us) :
    Lists (cs ++ sep ++ ds) (ts ++ us) where
  balanced := (h.balanced.append hsep.balanced).append hds.balanced
  inFront rest hrest := by
    rw [List.append_assoc, List.append_assoc, h.inFront _ (hsep.stops _),
      tokensFrom_delimiters fun c hc => (hsep.2 c hc).1, hds.inFront rest hrest, List.append_assoc]

theorem bracketed (h : Lists cs ts) : Lists ('[' :: (cs ++ [']'])) ts where
  balanced := by
    have hclose : Balanced [']'] := .char ']' [] (by decide) (by decide) .nil
    exact .char _ _ (by decide) (by decide) (h.balanced.append hclose)
  inFront rest hrest := by
    have hopen : tokensFrom 0 [] ('[' :: (cs ++ [']'] ++ rest)) =
        tokensFrom 0 [] (cs ++ (']' :: rest)) := by
      rw [tokensFrom_delimiter (by decide), List.append_assoc]
      rfl
    have hclose : isDelimiter ']' = true := by decide
    rw [List.cons_append, hopen, h.inFront (']' :: rest) hclose, tokensFrom_delimiter hclose]
    rfl

/-- Texts side by side, each with its own tokens, list all of them in order. -/
theorem intercalate (hsep : Separates sep) {texts : List (List Char)}
    {tokens : List (List (List Char))} (h : List.Forall₂ Lists texts tokens) :
    Lists (sep.intercalate texts) tokens.flatten := by
  induction h with
  | nil => exact nil
  | @cons text ts texts tokens hfirst hrest ih =>
    cases hrest with
    | nil => simpa using hfirst
    | cons hsecond hothers =>
      rw [List.intercalate_cons_cons]
      exact hfirst.append hsep ih

/-- Values behind one another with commas, each with its own tokens, list all of them in order. -/
theorem commas {α : Type} {items : List α} {text : α → String} {tokens : α → List (List Char)}
    (h : ∀ item ∈ items, Lists (text item).toList (tokens item)) :
    Lists (", ".intercalate (items.map text)).toList (items.flatMap tokens) := by
  have heach : List.Forall₂ Lists (items.map fun item => (text item).toList)
      (items.map tokens) := by
    rw [List.forall₂_map_left_iff, List.forall₂_map_right_iff, List.forall₂_same]
    exact h
  have hlists := intercalate Separates.comma heach
  rw [← List.flatMap_def] at hlists
  rw [String.toList_intercalate, List.map_map]
  exact hlists

end Lists

theorem stripGroup_parenthesized {cs : List Char} (h : Balanced cs) :
    stripGroup ('(' :: (cs ++ [')'])) = cs := by
  have hleft : trimLeft ('(' :: (cs ++ [')'])) = '(' :: (cs ++ [')']) := by
    rw [trimLeft, List.dropWhile_cons_of_neg (by decide)]
  have hright : trimRight ('(' :: (cs ++ [')'])) = '(' :: (cs ++ [')']) := by
    rw [trimRight, ← List.cons_append, List.reverse_append, List.reverse_singleton,
      List.singleton_append, List.dropWhile_cons_of_neg (by decide)]
    simp
  have hsplit : splitClosing? 0 (cs ++ [')']) = some (cs, []) := by
    rw [h.splitClosing?]
    simp [splitClosing?]
  rw [stripGroup, trim, hleft, hright]
  simp only [hsplit]

end DatasetGrid.Token
