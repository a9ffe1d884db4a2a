import DatasetGrid.Proofs.Alignment
import Mathlib.Data.List.Induction
import Mathlib.Data.List.Infix
import Mathlib.Data.List.Nodup

/-! # Paths of leaves

A path joins the names down to a leaf. As long as no name holds the separator, the last separator of
a path stands in front of the leaf's own name, also between names that begin or end with one of its
characters. So a path tells the names apart again: paths of distinct leaves differ, and a header
shows the path of the enclosing compound and the leaf's own name.
-/
namespace DatasetGrid

def joinNames (names : List String) : String :=
  pathSeparator.intercalate names

/-- A name that a path can carry: not empty, without the separator and without a line break. -/
def isPathName (name : String) : Bool :=
  name ≠ "" ∧ ¬ pathSeparator.toList <:+: name.toList ∧ '\n' ∉ name.toList

/-- A leaf of a compound, under the names of the compounds around it. -/
structure Place where
  groups : List String
  member : Member Datatype

namespace Place

def names (p : Place) : List String :=
  p.groups ++ [p.member.name]

def leaf (p : Place) : Leaf :=
  ⟨joinNames p.names, p.member.node, p.member.type⟩

end Place

namespace Datatype

mutual

def placesAt (groups : List String) (name : String) (node : Nat) : Datatype → List Place
  | .scalar type => [⟨groups, name, node, .scalar type⟩]
  | .array base dims => [⟨groups, name, node, .array base dims⟩]
  | .sequence base => [⟨groups, name, node, .sequence base⟩]
  | .compound members => placesUnder (groups ++ [name]) members

/-- The leaves of the members of a compound, in flattened order. -/
def placesUnder (groups : List String) : List (Member Datatype) → List Place
  | [] => []
  | member :: rest =>
    placesAt groups member.name member.node member.type ++ placesUnder groups rest

end

mutual

/-- Every compound that opens up could be built, from members with names that a path can carry. -/
def isNamed : Datatype → Bool
  | .scalar _ | .array .. | .sequence _ => true
  | .compound members => (compound? members).isOk && areNamed members

def areNamed : List (Member Datatype) → Bool
  | [] => true
  | member :: rest => isPathName member.name && member.type.isNamed && areNamed rest

end

theorem placesUnder_eq_flatMap (groups : List String) (members : List (Member Datatype)) :
    placesUnder groups members =
      members.flatMap fun m => m.type.placesAt groups m.name m.node := by
  induction members with
  | nil => rfl
  | cons m rest ih => rw [placesUnder, ih, List.flatMap_cons]

theorem areNamed_eq_all (members : List (Member Datatype)) :
    areNamed members = members.all fun m => isPathName m.name && m.type.isNamed := by
  induction members with
  | nil => rfl
  | cons m rest ih => rw [areNamed, ih, List.all_cons]

theorem repeatedName?_eq_none_iff (seen names : List String) :
    repeatedName? seen names = none ↔ names.Nodup ∧ ∀ name ∈ names, name ∉ seen := by
  induction names generalizing seen with
  | nil => simp [repeatedName?]
  | cons name rest ih =>
    rw [repeatedName?]
    by_cases hseen : name ∈ seen
    · simp [hseen]
    · rw [if_neg hseen, ih, List.nodup_cons, List.forall_mem_cons]
      simp only [List.mem_cons, not_or]
      constructor
      · rintro ⟨hrest, hnew⟩
        exact ⟨⟨fun hmem => (hnew name hmem).1 rfl, hrest⟩, hseen, fun n hn => (hnew n hn).2⟩
      · rintro ⟨⟨hfresh, hrest⟩, -, hnew⟩
        refine ⟨hrest, fun n hn => ⟨?_, hnew n hn⟩⟩
        rintro rfl
        exact hfresh hn

theorem isOk_compound?_iff {members : List (Member Datatype)} :
    (compound? members).isOk = true ↔ (members.map (·.name)).Nodup := by
  have hnone := repeatedName?_eq_none_iff [] (members.map (·.name))
  simp only [List.not_mem_nil, not_false_eq_true, implies_true, and_true] at hnone
  rw [← hnone, compound?]
  cases repeatedName? [] (members.map (·.name)) <;> simp [Except.isOk, Except.toBool]

theorem of_isNamed_compound {members : List (Member Datatype)}
    (h : (Datatype.compound members).isNamed = true) :
    (members.map (·.name)).Nodup ∧
      ∀ m ∈ members, isPathName m.name = true ∧ m.type.isNamed = true := by
  rw [isNamed, Bool.and_eq_true, isOk_compound?_iff, areNamed_eq_all, List.all_eq_true] at h
  exact ⟨h.1, fun m hm => by simpa only [Bool.and_eq_true] using h.2 m hm⟩

end Datatype

open Datatype

theorem joinNames_concat {groups : List String} (h : groups ≠ []) (name : String) :
    joinNames (groups ++ [name]) = joinNames groups ++ pathSeparator ++ name := by
  rw [joinNames, String.intercalate_append_of_ne_nil h (List.cons_ne_nil _ _),
    String.intercalate_singleton]
  rfl

theorem joinNames_singleton (name : String) : joinNames [name] = name :=
  String.intercalate_singleton

theorem isPathName_iff {name : String} : isPathName name = true ↔
    name ≠ "" ∧ ¬ pathSeparator.toList <:+: name.toList ∧ '\n' ∉ name.toList := by
  rw [isPathName, decide_eq_true_eq]

theorem joinNames_ne_empty {groups : List String} {name : String} (h : name ≠ "") :
    joinNames (groups ++ [name]) ≠ "" := by
  by_cases hgroups : groups = []
  · rw [hgroups, List.nil_append, joinNames_singleton]
    exact h
  · rw [joinNames_concat hgroups]
    intro hempty
    exact h (String.append_eq_empty_iff.mp hempty).2

/-- Only at the top is the path of the enclosing compound empty. -/
theorem memberPath_joinNames {groups : List String} (h : ∀ g ∈ groups, isPathName g = true)
    (name : String) : memberPath (joinNames groups) name = joinNames (groups ++ [name]) := by
  rcases List.eq_nil_or_concat groups with rfl | ⟨outer, g, rfl⟩
  · rfl
  · rw [List.concat_eq_append] at h ⊢
    have hg : g ≠ "" := (isPathName_iff.mp (h g (by simp))).1
    have hne : (joinNames (outer ++ [g])).isEmpty = false := by
      rw [Bool.eq_false_iff, ne_eq, String.isEmpty_iff]
      exact joinNames_ne_empty hg
    have hgroups : outer ++ [g] ≠ [] :=
      List.append_ne_nil_of_right_ne_nil outer (List.cons_ne_nil g [])
    rw [memberPath, hne, joinNames_concat hgroups]
    rfl

theorem leavesUnder_eq_of_members (groups : List String) {members : List (Member Datatype)}
    (h : ∀ m ∈ members, m.type.leavesAt (joinNames (groups ++ [m.name])) m.node =
      (m.type.placesAt groups m.name m.node).map Place.leaf)
    (hgroups : ∀ g ∈ groups, isPathName g = true) :
    leavesUnder (joinNames groups) members = (placesUnder groups members).map Place.leaf := by
  rw [leavesUnder_eq_flatMap, placesUnder_eq_flatMap, List.map_flatMap]
  apply List.flatMap_congr
  intro m hm
  rw [memberPath_joinNames hgroups, h m hm]

theorem leavesAt_eq_map {type : Datatype} (h : type.isNamed = true) {groups : List String}
    {name : String} (hnames : ∀ g ∈ groups ++ [name], isPathName g = true) (node : Nat) :
    type.leavesAt (joinNames (groups ++ [name])) node =
      (type.placesAt groups name node).map Place.leaf := by
  induction type generalizing groups name node with
  | compound members ih =>
    rw [leavesAt, placesAt]
    refine leavesUnder_eq_of_members _ (fun m hm => ?_) hnames
    have hm' := (of_isNamed_compound h).2 m hm
    refine ih m hm hm'.2 ?_ m.node
    rw [List.forall_mem_append, List.forall_mem_singleton]
    exact ⟨hnames, hm'.1⟩
  | _ => rfl

theorem leavesUnder_eq_map {members : List (Member Datatype)}
    (h : (Datatype.compound members).isNamed = true) :
    leavesUnder "" members = (placesUnder [] members).map Place.leaf := by
  refine leavesUnder_eq_of_members [] (fun m hm => ?_) (by simp)
  have hm' := (of_isNamed_compound h).2 m hm
  exact leavesAt_eq_map hm'.2 (by simpa using hm'.1) m.node

/-- All leaves below a member have its name next. -/
theorem prefix_names_of_mem_placesAt {type : Datatype} {groups : List String} {name : String}
    {node : Nat} {p : Place} (h : p ∈ type.placesAt groups name node) :
    groups ++ [name] <+: p.names := by
  induction type generalizing groups name node with
  | compound members ih =>
    rw [placesAt, placesUnder_eq_flatMap, List.mem_flatMap] at h
    obtain ⟨m, hm, hp⟩ := h
    exact (List.prefix_append _ _).trans (ih m hm hp)
  | _ =>
    rw [placesAt, List.mem_singleton] at h
    rw [h]
    exact List.prefix_refl _

/-- Leaves below members with distinct names part ways at these. -/
theorem nodup_placesUnder {groups : List String} {members : List (Member Datatype)}
    (hnames : (members.map (·.name)).Nodup)
    (h : ∀ m ∈ members, ((m.type.placesAt groups m.name m.node).map Place.names).Nodup) :
    ((placesUnder groups members).map Place.names).Nodup := by
  induction members with
  | nil => exact List.nodup_nil
  | cons m rest ih =>
    rw [List.map_cons, List.nodup_cons] at hnames
    rw [placesUnder, List.map_append, List.nodup_append]
    refine ⟨h m List.mem_cons_self, ih hnames.2 fun m hm => h m (List.mem_cons_of_mem _ hm), ?_⟩
    -- Names that lead below two members begin with the names of both.
    rintro names hfirst _ hother rfl
    obtain ⟨p, hp, rfl⟩ := List.mem_map.mp hfirst
    obtain ⟨q, hq, hsame⟩ := List.mem_map.mp hother
    rw [placesUnder_eq_flatMap, List.mem_flatMap] at hq
    obtain ⟨m', hm', hq⟩ := hq
    have hprefix := prefix_names_of_mem_placesAt hp
    have hprefix' := hsame ▸ prefix_names_of_mem_placesAt hq
    have heq := (List.prefix_of_prefix_length_le hprefix hprefix' (by simp)).eq_of_length (by simp)
    have hname : m.name = m'.name := by simpa using heq
    exact hnames.1 (hname ▸ List.mem_map_of_mem hm')

theorem nodup_placesAt {type : Datatype} (h : type.isNamed = true) (groups : List String)
    (name : String) (node : Nat) : ((type.placesAt groups name node).map Place.names).Nodup := by
  induction type generalizing groups name node with
  | compound members ih =>
    have hmembers := of_isNamed_compound h
    rw [placesAt]
    exact nodup_placesUnder hmembers.1 fun m hm => ih m hm (hmembers.2 m hm).2 _ _ _
  | _ => exact List.nodup_singleton _

theorem isPathName_of_mem_placesAt {type : Datatype} (h : type.isNamed = true)
    {groups : List String} {name : String} {node : Nat}
    (hnames : ∀ g ∈ groups ++ [name], isPathName g = true) {p : Place}
    (hp : p ∈ type.placesAt groups name node) : ∀ name ∈ p.names, isPathName name = true := by
  induction type generalizing groups name node with
  | compound members ih =>
    rw [placesAt, placesUnder_eq_flatMap, List.mem_flatMap] at hp
    obtain ⟨m, hm, hp⟩ := hp
    have hm' := (of_isNamed_compound h).2 m hm
    refine ih m hm hm'.2 ?_ hp
    rw [List.forall_mem_append, List.forall_mem_singleton]
    exact ⟨hnames, hm'.1⟩
  | _ =>
    rw [placesAt, List.mem_singleton] at hp
    rw [hp]
    exact hnames

section SplitLast

variable {cs before after : List Char}

theorem splitLast?_eq_none (h : ¬ pathSeparator.toList <:+: cs) : splitLast? cs = none := by
  induction cs with
  | nil => rfl
  | cons c rest ih =>
    have hrest := ih fun hinside => h (hinside.trans (List.suffix_cons c rest).isInfix)
    rw [splitLast?, hrest]
    refine if_neg ?_
    rintro ⟨rfl, hhead⟩
    obtain ⟨tail, rfl⟩ := List.head?_eq_some_iff.mp hhead
    exact h (List.prefix_append ['-', '>'] tail).isInfix

theorem splitLast?_append {rest : List Char} (h : splitLast? rest = some (before, after))
    (front : List Char) : splitLast? (front ++ rest) = some (front ++ before, after) := by
  induction front with
  | nil => exact h
  | cons c front ih => rw [List.cons_append, splitLast?, ih]; rfl

/-- A text is split at the separator in front of what holds none, whatever stands before it. -/
theorem splitLast?_separator (before : List Char) (h : ¬ pathSeparator.toList <:+: after) :
    splitLast? (before ++ pathSeparator.toList ++ after) = some (before, after) := by
  have hclosing : splitLast? ('>' :: after) = none := by
    rw [splitLast?, splitLast?_eq_none h]
    exact if_neg fun hmark => absurd hmark.1 (by decide)
  have hsplit : splitLast? ('-' :: '>' :: after) = some ([], after) := by
    rw [splitLast?, hclosing]
    rfl
  have happend := splitLast?_append hsplit before
  rw [List.append_nil] at happend
  rw [List.append_assoc]
  exact happend

end SplitLast

/-- A path splits into the path of the group and the name, and not at all at the top. -/
theorem splitLast?_joinNames (groups : List String) {name : String} (h : isPathName name = true) :
    splitLast? (joinNames (groups ++ [name])).toList =
      if groups = [] then none else some ((joinNames groups).toList, name.toList) := by
  have hname := (isPathName_iff.mp h).2.1
  by_cases hgroups : groups = []
  · rw [if_pos hgroups, hgroups, List.nil_append, joinNames_singleton, splitLast?_eq_none hname]
  · rw [if_neg hgroups, joinNames_concat hgroups, String.toList_append, String.toList_append,
      splitLast?_separator _ hname]

theorem joinNames_injective {names others : List String}
    (h : ∀ n ∈ names, isPathName n = true) (hothers : ∀ n ∈ others, isPathName n = true)
    (hjoin : joinNames names = joinNames others) : names = others := by
  induction names using List.reverseRecOn generalizing others with
  | nil =>
    rcases List.eq_nil_or_concat others with rfl | ⟨groups, name, rfl⟩
    · rfl
    · rw [List.concat_eq_append] at hothers hjoin
      have hname := (isPathName_iff.mp (hothers name (by simp))).1
      exact absurd hjoin.symm (joinNames_ne_empty hname)
  | append_singleton outer name ih =>
    rw [List.forall_mem_append, List.forall_mem_singleton] at h
    rcases List.eq_nil_or_concat others with rfl | ⟨groups, name', rfl⟩
    · exact absurd hjoin (joinNames_ne_empty (isPathName_iff.mp h.2).1)
    · rw [List.concat_eq_append] at hothers hjoin ⊢
      rw [List.forall_mem_append, List.forall_mem_singleton] at hothers
      have hsplit := congrArg (fun path => splitLast? path.toList) hjoin
      simp only [splitLast?_joinNames _ h.2, splitLast?_joinNames _ hothers.2] at hsplit
      by_cases houter : outer = [] <;> by_cases hgroups : groups = []
      · rw [houter, hgroups, List.nil_append, List.nil_append, joinNames_singleton,
          joinNames_singleton] at hjoin
        rw [houter, hgroups, hjoin]
      · rw [if_pos houter, if_neg hgroups] at hsplit
        cases hsplit
      · rw [if_neg houter, if_pos hgroups] at hsplit
        cases hsplit
      · rw [if_neg houter, if_neg hgroups, Option.some.injEq, Prod.mk.injEq, String.toList_inj,
          String.toList_inj] at hsplit
        rw [ih h.1 hothers.1 hsplit.1, hsplit.2]

namespace Header

/-- What a label adds to a name starts on a new line. -/
theorem elementList_cases (type : Datatype) :
    elementList type = "" ∨ ∃ rest, (elementList type).toList = '\n' :: rest := by
  unfold elementList
  split
  · right
    simp only [String.toList_append]
    exact ⟨_, rfl⟩
  · exact .inl rfl

theorem shortName_eq {h : Header} {name : String} (type : Datatype)
    (hlabel : h.label = name ++ elementList type) (hname : '\n' ∉ name.toList) :
    h.shortName = name := by
  have hline : ∀ c ∈ name.toList, decide (c ≠ '\n') = true := by
    intro c hc
    rw [decide_eq_true_eq]
    rintro rfl
    exact hname hc
  rw [shortName, hlabel, String.toList_append, List.takeWhile_append_of_pos hline]
  rcases elementList_cases type with hnone | ⟨rest, hrest⟩
  · rw [hnone]
    simp
  · rw [hrest, List.takeWhile_cons_of_neg (by simp), List.append_nil, String.ofList_toList]

/-- A header takes the path of a leaf apart into the path around it and its own name. -/
theorem ofLeaf_place {p : Place} (h : isPathName p.member.name = true) :
    (ofLeaf p.leaf).path = joinNames p.names ∧ (ofLeaf p.leaf).group = joinNames p.groups ∧
      (ofLeaf p.leaf).shortName = p.member.name := by
  have hsplit := splitLast?_joinNames p.groups h
  have hline := (isPathName_iff.mp h).2.2
  refine ⟨ofLeaf_path p.leaf, ?_⟩
  by_cases hgroups : p.groups = []
  · rw [if_pos hgroups] at hsplit
    have hheader : ofLeaf p.leaf =
        ⟨joinNames p.names, "", joinNames p.names ++ elementList p.member.type⟩ := by
      simp only [ofLeaf, Place.leaf, Place.names, hsplit]
    have hname : joinNames p.names = p.member.name := by
      rw [Place.names, hgroups, List.nil_append, joinNames_singleton]
    rw [hheader, hgroups]
    exact ⟨rfl, shortName_eq p.member.type (by rw [hname]) hline⟩
  · rw [if_neg hgroups] at hsplit
    have hheader : ofLeaf p.leaf =
        ⟨joinNames p.names, joinNames p.groups, p.member.name ++ elementList p.member.type⟩ := by
      simp only [ofLeaf, Place.leaf, Place.names, hsplit, String.ofList_toList]
    rw [hheader]
    exact ⟨rfl, shortName_eq p.member.type rfl hline⟩

end Header

namespace Selection

def places (s : Selection) : List Place :=
  Datatype.placesUnder [] s.members

def selectedPlaces (s : Selection) : List Place :=
  ((s.places.zip s.flags).filter (·.2)).map (·.1)

variable {s : Selection}

theorem leaves_eq_map (h : s.compound.isNamed = true) : s.leaves = s.places.map Place.leaf :=
  leavesUnder_eq_map h

theorem selected_eq_map (h : s.compound.isNamed = true) :
    s.selected = s.selectedPlaces.map Place.leaf := by
  rw [selected, leaves_eq_map h, List.zip_map_left, List.filter_map, List.map_map, selectedPlaces,
    List.map_map]
  rfl

theorem isPathName_of_mem_places (h : s.compound.isNamed = true) {p : Place} (hp : p ∈ s.places) :
    ∀ name ∈ p.names, isPathName name = true := by
  rw [places, placesUnder_eq_flatMap, List.mem_flatMap] at hp
  obtain ⟨m, hm, hp⟩ := hp
  have hm' := (of_isNamed_compound h).2 m hm
  refine isPathName_of_mem_placesAt hm'.2 ?_ hp
  rw [List.nil_append, List.forall_mem_singleton]
  exact hm'.1

theorem mem_places_of_mem_selectedPlaces {p : Place} (h : p ∈ s.selectedPlaces) : p ∈ s.places := by
  obtain ⟨⟨q, flag⟩, hq, rfl⟩ := List.mem_map.mp h
  exact (List.of_mem_zip (List.mem_of_mem_filter hq)).1

end Selection

/-- Where every compound has distinct names that a path can carry, no two leaves have one path, and
the header of each column shows the path of the compound around its leaf and the leaf's own name. -/
theorem Headers.ofSelection_named {s : Selection} (h : s.compound.isNamed = true) (width : Nat) :
    s.leaves = s.places.map Place.leaf ∧ (s.leaves.map (·.path)).Nodup ∧
    (ofSelection s width).size = max width 1 * s.selectedPlaces.length ∧
    ∀ column < (ofSelection s width).size, ∃ place header,
      s.selectedPlaces[column % s.selectedPlaces.length]? = some place ∧
      (ofSelection s width).get? column = some header ∧
      header.path = joinNames place.names ∧ header.group = joinNames place.groups ∧
      header.shortName = place.member.name := by
  have hselected := Selection.selected_eq_map h
  have hlength : s.selected.length = s.selectedPlaces.length := by
    rw [hselected, List.length_map]
  have hsize : (ofSelection s width).size = max width 1 * s.selectedPlaces.length := by
    rw [size_ofSelection, hlength]
  refine ⟨Selection.leaves_eq_map h, ?_, hsize, fun column hcolumn => ?_⟩
  · have hpaths : s.leaves.map (·.path) = (s.places.map Place.names).map joinNames := by
      rw [Selection.leaves_eq_map h, List.map_map, List.map_map]
      rfl
    rw [hpaths]
    refine List.Nodup.map_on ?_ ?_
    · intro names hnames others hothers hjoin
      obtain ⟨p, hp, rfl⟩ := List.mem_map.mp hnames
      obtain ⟨q, hq, rfl⟩ := List.mem_map.mp hothers
      exact joinNames_injective (Selection.isPathName_of_mem_places h hp)
        (Selection.isPathName_of_mem_places h hq) hjoin
    · have hmembers := of_isNamed_compound h
      exact nodup_placesUnder hmembers.1 fun m hm => nodup_placesAt (hmembers.2 m hm).2 _ _ _
  · rw [hsize] at hcolumn
    have hplaces : s.selectedPlaces ≠ [] := by
      intro hnil
      rw [hnil] at hcolumn
      exact absurd hcolumn (by simp)
    obtain ⟨place, hplace⟩ := exists_getElem?_mod hplaces column
    have hmem := Selection.mem_places_of_mem_selectedPlaces (List.mem_of_getElem? hplace)
    have hname :=
      Selection.isPathName_of_mem_places h hmem place.member.name (by simp [Place.names])
    refine ⟨place, Header.ofLeaf place.leaf, hplace, ?_, Header.ofLeaf_place hname⟩
    rw [get?_ofSelection (hlength ▸ hcolumn), hlength, hselected, List.getElem?_map, hplace]
    rfl

/-- A list of points three levels down, with names that end or begin with a character of the
separator. -/
def arrowMembers : List (Member Datatype) :=
  let points := Datatype.compound [⟨"x", 1, .scalar (.float 4)⟩, ⟨"y", 2, .scalar (.float 4)⟩]
  [⟨"id-", 3, .scalar (.integer ⟨1, false⟩)⟩,
    ⟨"a-", 4, .compound [⟨">b", 5, .scalar (.char true)⟩,
      ⟨"-", 6, .compound [⟨">", 7, .array points [4]⟩]⟩]⟩]

/-- The header of the list names its element's members in the label, and shows its own name. -/
theorem Headers.ofSelection_named_arrows :
    let s : Selection := ⟨arrowMembers, [false, true, true], rfl⟩
    s.compound.isNamed = true ∧ s.paths = ["a-->>b", "a-->-->>"] ∧
      (s.leaves.map (·.path)).Nodup ∧
      ∃ header, (ofSelection s 2).get? 3 = some header ∧ header.path = "a-->-->>" ∧
        header.group = "a-->-" ∧ header.label = ">\n\n[ x, y ]" ∧ header.shortName = ">" := by
  intro s
  have hnamed : s.compound.isNamed = true := by decide +kernel
  obtain ⟨-, hnodup, -, hheaders⟩ := ofSelection_named hnamed 2
  obtain ⟨place, header, hplace, hheader, hpath, hgroup, hshort⟩ := hheaders 3 (by decide +kernel)
  have hcount : s.selectedPlaces.length = 2 := rfl
  have hlast : s.selectedPlaces[1]? = some ⟨["a-", "-"], ⟨">", 7, .array (.compound
      [⟨"x", 1, .scalar (.float 4)⟩, ⟨"y", 2, .scalar (.float 4)⟩]) [4]⟩⟩ := rfl
  rw [hcount] at hplace
  cases hplace.symm.trans hlast
  have hlabel : (ofSelection s 2).get? 3 = some ⟨"a-->-->>", "a-->-", ">\n\n[ x, y ]"⟩ := by
    decide +kernel
  cases hheader.symm.trans hlabel
  exact ⟨hnamed, by decide +kernel, hnodup, _, hlabel, rfl, rfl, rfl, hshort⟩

end DatasetGrid
