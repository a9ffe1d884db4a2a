import DatasetGrid.Proofs.Tokens

/-! # Texts cut into tokens

The delimiters outside groups cut a text into its tokens, in one way only. Nothing else of the text
is lost, and tokens that are set side by side again come out as they were. A group that is never
closed takes the rest of the text, so that it can only stand in the last token.
-/
namespace DatasetGrid.Token

open Text

/-- The nesting depth of groups behind a text. -/
def depthAfter (depth : Nat) (cs : List Char) : Nat :=
  cs.foldl nextDepth depth

/-- No delimiter of the text stands outside groups. -/
def isUnbroken (depth : Nat) : List Char → Bool
  | [] => true
  | c :: rest => (0 < depth || !isDelimiter c) && isUnbroken (nextDepth depth c) rest

def withoutDelimiters (depth : Nat) : List Char → List Char
  | [] => []
  | c :: rest =>
    if depth = 0 ∧ isDelimiter c then withoutDelimiters (nextDepth depth c) rest
    else c :: withoutDelimiters (nextDepth depth c) rest

/-- The tokens stand in the text in this order, with nothing but delimiters around them. Behind a
token the text ends or a delimiter follows; it ends where a group of the token is left open. -/
inductive Cuts : List Char → List (List Char) → Prop
  | nil : Cuts [] []
  | delimiter (c : Char) (rest : List Char) (ts : List (List Char)) : isDelimiter c = true →
      Cuts rest ts → Cuts (c :: rest) ts
  | token (t rest : List Char) (ts : List (List Char)) : t ≠ [] → isUnbroken 0 t = true →
      Stops rest → (rest ≠ [] → depthAfter 0 t = 0) → Cuts rest ts → Cuts (t ++ rest) (t :: ts)

variable {c : Char} {cs rest t current sep : List Char} {ts : List (List Char)} {depth : Nat}

theorem depthAfter_append (depth : Nat) (cs rest : List Char) :
    depthAfter depth (cs ++ rest) = depthAfter (depthAfter depth cs) rest :=
  List.foldl_append

theorem nextDepth_of_isDelimiter (h : isDelimiter c = true) : nextDepth 0 c = 0 := by
  rw [nextDepth, if_neg (not_open_of_isDelimiter h)]
  split <;> rfl

/-- A delimiter outside groups ends the token under way, and every other character joins it. -/
theorem tokensFrom_cons (depth : Nat) (current : List Char) (c : Char) (rest : List Char) :
    tokensFrom depth current (c :: rest) =
      if depth = 0 ∧ isDelimiter c then pendingWord current ++ tokensFrom 0 [] rest
      else tokensFrom (nextDepth depth c) (current ++ [c]) rest := by
  rw [tokensFrom]
  cases depth with
  | succ depth => simp
  | zero =>
    by_cases hopen : c = '('
    · subst c
      simp [nextDepth, isDelimiter, isBlank, blankRanges]
    · by_cases hdelimiter : isDelimiter c = true
      · simp [hopen, hdelimiter]
      · have hdepth : nextDepth 0 c = 0 := by simp [nextDepth, hopen]
        simp [hopen, hdelimiter, hdepth]

theorem isUnbroken_cons : isUnbroken depth (c :: rest) = true ↔
    ¬ (depth = 0 ∧ isDelimiter c = true) ∧ isUnbroken (nextDepth depth c) rest = true := by
  rw [isUnbroken, Bool.and_eq_true, Bool.or_eq_true, decide_eq_true_eq, Nat.pos_iff_ne_zero,
    Bool.not_eq_true', Bool.eq_false_iff, not_and_or]

theorem isUnbroken_append (depth : Nat) (cs rest : List Char) :
    isUnbroken depth (cs ++ rest) =
      (isUnbroken depth cs && isUnbroken (depthAfter depth cs) rest) := by
  induction cs generalizing depth with
  | nil => rfl
  | cons c cs ih =>
    rw [List.cons_append, isUnbroken, ih, isUnbroken, Bool.and_assoc]
    rfl

theorem tokensFrom_unbroken (h : isUnbroken depth t = true) (current rest : List Char) :
    tokensFrom depth current (t ++ rest) =
      tokensFrom (depthAfter depth t) (current ++ t) rest := by
  induction t generalizing depth current with
  | nil => simp [depthAfter]
  | cons c t ih =>
    obtain ⟨hkeep, hrest⟩ := isUnbroken_cons.mp h
    rw [List.cons_append, tokensFrom_cons, if_neg hkeep, ih hrest]
    simp [depthAfter]

theorem withoutDelimiters_unbroken (h : isUnbroken depth t = true) (rest : List Char) :
    withoutDelimiters depth (t ++ rest) = t ++ withoutDelimiters (depthAfter depth t) rest := by
  induction t generalizing depth with
  | nil => rfl
  | cons c t ih =>
    obtain ⟨hkeep, hrest⟩ := isUnbroken_cons.mp h
    rw [List.cons_append, withoutDelimiters, if_neg hkeep, ih hrest]
    rfl

namespace Cuts

/-- The way in which a text is cut is the way in which it is read. -/
theorem tokens_eq (h : Cuts cs ts) : tokens cs = ts := by
  induction h with
  | nil => rfl
  | delimiter c rest ts hdelimiter _ ih =>
    rw [tokens, tokensFrom_delimiter hdelimiter]
    exact ih
  | token t rest ts hne hunbroken hstops hclosed _ ih =>
    rw [tokens, tokensFrom_unbroken hunbroken, List.nil_append]
    cases rest with
    | nil =>
      rw [← ih]
      simp [tokens, tokensFrom, pendingWord, hne]
    | cons c rest =>
      rw [hclosed (List.cons_ne_nil _ _), tokensFrom_stops hne hstops]
      exact congrArg (t :: ·) ih

theorem ne_nil (h : Cuts cs (t :: ts)) : cs ≠ [] := by
  rintro rfl
  have htokens := h.tokens_eq
  cases htokens

/-- What is read, together with the token under way, is a cut of the text. -/
theorem of_tokensFrom (current cs : List Char) (hunbroken : isUnbroken 0 current = true)
    (hdepth : depthAfter 0 current = depth) :
    Cuts (current ++ cs) (tokensFrom depth current cs) := by
  -- The token under way stands in front of the text, and the text gives its characters to it.
  induction cs generalizing depth current with
  | nil =>
    rw [tokensFrom, pendingWord]
    split
    · rename_i hcurrent
      subst current
      exact .nil
    · rename_i hcurrent
      exact .token current [] [] hcurrent hunbroken trivial (absurd rfl) .nil
  | cons c rest ih =>
    rw [tokensFrom_cons]
    split
    · rename_i hcut
      have hrest : Cuts (c :: rest) (tokensFrom 0 [] rest) :=
        .delimiter c rest _ hcut.2 (ih [] rfl rfl)
      rw [pendingWord]
      split
      · rename_i hcurrent
        subst current
        exact hrest
      · rename_i hcurrent
        exact .token current (c :: rest) _ hcurrent hunbroken hcut.2
          (fun _ => hdepth.trans hcut.1) hrest
    · rename_i hkeep
      rw [List.append_cons]
      apply ih
      · rw [isUnbroken_append, hunbroken, hdepth, Bool.true_and, isUnbroken_cons]
        exact ⟨hkeep, rfl⟩
      · rw [depthAfter_append, hdepth]
        rfl

theorem of_tokens (cs : List Char) : Cuts cs (tokens cs) :=
  of_tokensFrom [] cs rfl rfl

theorem token_unbroken (h : Cuts cs ts) (ht : t ∈ ts) : t ≠ [] ∧ isUnbroken 0 t = true := by
  induction h with
  | nil => cases ht
  | delimiter c rest ts _ _ ih => exact ih ht
  | token first rest ts hne hunbroken _ _ _ ih =>
    rcases List.mem_cons.mp ht with rfl | ht
    · exact ⟨hne, hunbroken⟩
    · exact ih ht

theorem flatten_eq (h : Cuts cs ts) : ts.flatten = withoutDelimiters 0 cs := by
  induction h with
  | nil => rfl
  | delimiter c rest ts hdelimiter _ ih =>
    rw [withoutDelimiters, if_pos ⟨rfl, hdelimiter⟩, nextDepth_of_isDelimiter hdelimiter, ih]
  | token t rest ts _ hunbroken _ hclosed _ ih =>
    rw [List.flatten_cons, ih, withoutDelimiters_unbroken hunbroken]
    cases rest with
    | nil => rfl
    | cons c rest => rw [hclosed (List.cons_ne_nil _ _)]

theorem delimiters (hsep : ∀ c ∈ sep, isDelimiter c = true) (h : Cuts cs ts) :
    Cuts (sep ++ cs) ts := by
  induction sep with
  | nil => exact h
  | cons c sep ih =>
    apply Cuts.delimiter c _ ts (hsep c List.mem_cons_self)
    exact ih fun c hc => hsep c (List.mem_cons_of_mem _ hc)

/-- Tokens that are set side by side again are cut at the same places. Only the last of them may
leave a group open, and nothing follows it here either. -/
theorem intercalate (hsep : Separates sep) (h : Cuts cs ts) : Cuts (sep.intercalate ts) ts := by
  induction h with
  | nil => exact .nil
  | delimiter c rest ts _ _ ih => exact ih
  | token t rest ts hne hunbroken _ hclosed hrest ih =>
    cases ts with
    | nil =>
      have halone : Cuts (t ++ []) [t] := .token t [] [] hne hunbroken trivial (absurd rfl) .nil
      simpa using halone
    | cons next ts =>
      rw [List.intercalate_cons_cons, List.append_assoc]
      apply Cuts.token t _ _ hne hunbroken
      · exact hsep.stops _
      · exact fun _ => hclosed hrest.ne_nil
      · exact ih.delimiters fun c hc => (hsep.2 c hc).1

end Cuts

/-- The text closes the groups it is in and every group that it opens. -/
inductive Closes : Nat → List Char → Prop
  | balanced (cs : List Char) : Balanced cs → Closes 0 cs
  | group (depth : Nat) (inner rest : List Char) : Balanced inner → Closes depth rest →
      Closes (depth + 1) (inner ++ ')' :: rest)

theorem Closes.append (ht : Balanced t) (h : Closes depth cs) : Closes depth (t ++ cs) := by
  cases h with
  | balanced _ hcs => exact .balanced _ (ht.append hcs)
  | group depth inner rest hinner hrest =>
    rw [← List.append_assoc]
    exact .group depth _ rest (ht.append hinner) hrest

/-- Counting the parentheses of an unbroken text is matching them. -/
theorem closes_of_depthAfter (h : isUnbroken depth cs = true) (hdepth : depthAfter depth cs = 0) :
    Closes depth cs := by
  induction cs generalizing depth with
  | nil =>
    obtain rfl : depth = 0 := hdepth
    exact .balanced [] .nil
  | cons c rest ih =>
    obtain ⟨hkeep, hunbroken⟩ := isUnbroken_cons.mp h
    have hrest : Closes (nextDepth depth c) rest := ih hunbroken hdepth
    by_cases hopen : c = '('
    · subst c
      rw [nextDepth, if_pos rfl] at hrest
      cases hrest with
      | group _ inner behind hinner hbehind =>
        have hgroup := hbehind.append hinner.parenthesized
        simpa using hgroup
    · by_cases hclose : c = ')'
      · subst c
        cases depth with
        | zero => exact absurd ⟨rfl, by decide⟩ hkeep
        | succ depth => exact .group depth [] rest .nil hrest
      · rw [nextDepth, if_neg hopen, if_neg hclose] at hrest
        exact hrest.append (.char c [] hopen hclose .nil)

theorem balanced_of_depthAfter (h : isUnbroken 0 t = true) (hdepth : depthAfter 0 t = 0) :
    Balanced t := by
  cases closes_of_depthAfter h hdepth with
  | balanced _ ht => exact ht

theorem balanced_intercalate (hsep : Separates sep) (h : ∀ t ∈ ts, Balanced t) :
    Balanced (sep.intercalate ts) := by
  induction ts with
  | nil => exact .nil
  | cons t rest ih =>
    have ht := h t List.mem_cons_self
    have hrest := ih fun t ht => h t (List.mem_cons_of_mem _ ht)
    cases rest with
    | nil => simpa using ht
    | cons next rest =>
      rw [List.intercalate_cons_cons]
      exact (ht.append hsep.balanced).append hrest

theorem map_toList_ofArray (text : String) :
    (ofArray text).map String.toList = tokens text.toList := by
  rw [ofArray, List.map_map]
  simp [Function.comp_def]

theorem ofArray_eq_of_cuts {text : String} {ts : List String}
    (h : Cuts text.toList (ts.map String.toList)) : ofArray text = ts := by
  rw [ofArray, h.tokens_eq, List.map_map]
  simp [Function.comp_def]

theorem ofArray_intercalate {sep : String} (hsep : Separates sep.toList) (text : String) :
    ofArray (sep.intercalate (ofArray text)) = ofArray text := by
  apply ofArray_eq_of_cuts
  rw [String.toList_intercalate, map_toList_ofArray]
  exact (Cuts.of_tokens text.toList).intercalate hsep

/-- Tokens in parentheses are read as they were, since no parenthesis of theirs matches the outer
ones. -/
theorem ofSequence_parenthesized {sep : String} (hsep : Separates sep.toList) {text : String}
    (h : ∀ t ∈ ofArray text, depthAfter 0 t.toList = 0) :
    ofSequence ("(" ++ sep.intercalate (ofArray text) ++ ")") = ofArray text := by
  have hbalanced : ∀ t ∈ tokens text.toList, Balanced t := by
    intro t ht
    have hunbroken := (Cuts.of_tokens text.toList).token_unbroken ht
    have hclosed := h (String.ofList t) (List.mem_map_of_mem ht)
    rw [String.toList_ofList] at hclosed
    exact balanced_of_depthAfter hunbroken.2 hclosed
  have hinner : Balanced (sep.intercalate (ofArray text)).toList := by
    rw [String.toList_intercalate, map_toList_ofArray]
    exact balanced_intercalate hsep hbalanced
  have hwhole : ("(" ++ sep.intercalate (ofArray text) ++ ")").toList =
      '(' :: ((sep.intercalate (ofArray text)).toList ++ [')']) := by
    rw [String.toList_append, String.toList_append]
    rfl
  rw [ofSequence, hwhole, stripGroup_parenthesized hinner]
  exact ofArray_intercalate hsep text

/-- The tokens of a text are its only cut. They are not empty, have no delimiter outside groups and
are together what such delimiters leave of the text. Set side by side again, with a comma and a
blank or with a blank alone, they are read as they were; in parentheses too, if no group is left
open. -/
theorem ofArray_lossless (text : String) :
    (∀ ts : List String, Cuts text.toList (ts.map String.toList) ↔ ofArray text = ts) ∧
    (∀ t ∈ ofArray text, t ≠ "" ∧ isUnbroken 0 t.toList = true) ∧
    (ofArray text).flatMap String.toList = withoutDelimiters 0 text.toList ∧
    ofArray (", ".intercalate (ofArray text)) = ofArray text ∧
    ofArray (" ".intercalate (ofArray text)) = ofArray text ∧
    ((∀ t ∈ ofArray text, depthAfter 0 t.toList = 0) →
      ofSequence ("(" ++ ", ".intercalate (ofArray text) ++ ")") = ofArray text) := by
  have hcuts := Cuts.of_tokens text.toList
  have hcomma : Separates ", ".toList := .comma
  have hblank : Separates " ".toList := .blank
  refine ⟨fun ts => ?_, fun t ht => ?_, ?_, ofArray_intercalate hcomma text,
    ofArray_intercalate hblank text, ofSequence_parenthesized hcomma⟩
  · constructor
    · exact ofArray_eq_of_cuts
    · rintro rfl
      rw [map_toList_ofArray]
      exact hcuts
  · obtain ⟨word, hword, rfl⟩ := List.mem_map.mp ht
    rw [String.toList_ofList, ne_eq, String.ofList_eq_empty_iff]
    exact hcuts.token_unbroken hword
  · rw [List.flatMap_def, map_toList_ofArray, hcuts.flatten_eq]

/-- A parenthesis that closes nothing is a delimiter, and groups in a group stay in it. -/
theorem ofArray_lossless_nested :
    ofArray "[4, (5, (6)) x]) ,7" = ["4", "(5, (6))", "x", "7"] ∧
    (∀ t ∈ ofArray "[4, (5, (6)) x]) ,7", depthAfter 0 t.toList = 0) ∧
    ofSequence ("(" ++ ", ".intercalate (ofArray "[4, (5, (6)) x]) ,7") ++ ")") =
      ["4", "(5, (6))", "x", "7"] := by
  have htokens : ofArray "[4, (5, (6)) x]) ,7" = ["4", "(5, (6))", "x", "7"] := by
    decide +kernel
  have hclosed : ∀ t ∈ ofArray "[4, (5, (6)) x]) ,7", depthAfter 0 t.toList = 0 := by
    rw [htokens]
    simp only [List.forall_mem_cons, List.not_mem_nil, false_implies, implies_true, and_true]
    decide
  refine ⟨htokens, hclosed, ?_⟩
  rw [(ofArray_lossless "[4, (5, (6)) x]) ,7").2.2.2.2.2 hclosed]
  exact htokens

example : ofArray "1 [2 (3,  4" = ["1", "2", "(3,  4"] := by decide +kernel

end DatasetGrid.Token
