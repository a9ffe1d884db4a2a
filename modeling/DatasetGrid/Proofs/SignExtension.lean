import DatasetGrid.Proofs.Agreement
import DatasetGrid.Proofs.RoundTrip

/-! # Sign-extended words in unsigned members

The word of an unsigned integer may come with the bytes above it filled up by its sign. It shows as
the number of its own bytes, by itself and in lists, and is read back as that number.
-/
namespace DatasetGrid

open Text

def lowBytes (size : Nat) (n : Int64) : UInt64 :=
  UInt64.ofInt (n.toInt % 2 ^ (8 * size))

theorem toNat_toUInt64 (n : Int64) : (n.toUInt64.toNat : Int) = n.toInt % 2 ^ 64 := by
  have hbits : n.toInt = n.toBitVec.toInt := rfl
  have hnat : n.toUInt64.toNat = n.toBitVec.toNat := rfl
  have hlt := n.toBitVec.isLt
  rw [hbits, hnat, BitVec.toInt_eq_toNat_cond]
  split <;> omega

section LowBytes

variable {size : Nat} {n : Int64}

/-- Nothing is lost: as many bytes fit into a word. -/
theorem toNat_lowBytes (hsize : size ∈ [1, 2, 4, 8]) :
    ((lowBytes size n).toNat : Int) = n.toInt % 2 ^ (8 * size) := by
  rw [lowBytes, UInt64.ofInt, UInt64.toNat_ofNat']
  simp only [List.mem_cons, List.not_mem_nil, or_false] at hsize
  rcases hsize with rfl | rfl | rfl | rfl <;> omega

theorem holds_lowBytes (hsize : size ∈ [1, 2, 4, 8]) :
    IntegerType.holds ⟨size, false⟩ (.uint (lowBytes size n)) = true := by
  have hn := toNat_lowBytes hsize (n := n)
  have hrange : IntegerType.range? ⟨size, false⟩ = some (0, 2 ^ (8 * size) - 1) := by
    rw [IntegerType.range?, if_pos (by simpa using hsize)]
    rfl
  simp only [IntegerType.holds, hrange, Bool.not_false, Bool.true_and, decide_eq_true_eq]
  simp only [List.mem_cons, List.not_mem_nil, or_false] at hsize
  rcases hsize with rfl | rfl | rfl | rfl <;> omega

/-- A word within the bytes, or filled up by its sign, shows as their number. -/
theorem integerText_lowBytes (hsize : size ∈ [1, 2, 4, 8]) (hn : n.toInt < 2 ^ (8 * size)) :
    integerText ⟨size, false⟩ (.int n) = .ofList (decimal (lowBytes size n).toNat) := by
  have hlow := toNat_lowBytes hsize (n := n)
  simp only [integerText, integerText?, Bool.not_false, true_and]
  by_cases hneg : n.toInt < 0
  · have hword := toNat_toUInt64 n
    have hbytes : n.toUInt64.toNat % 2 ^ (8 * size) = (lowBytes size n).toNat := by
      simp only [List.mem_cons, List.not_mem_nil, or_false] at hsize
      rcases hsize with rfl | rfl | rfl | rfl <;> omega
    have hmin : min size 8 = size := by
      simp only [List.mem_cons, List.not_mem_nil, or_false] at hsize
      omega
    rw [if_pos hneg, hmin, hbytes]
    rfl
  · have hsame : n.toInt = (lowBytes size n).toNat := by
      rw [hlow, Int.emod_eq_of_lt (by omega) hn]
    rw [if_neg hneg, hsame, signedDecimal_natCast]
    rfl

end LowBytes

namespace Editor

variable {σ : Type} {d : Display σ}

/-- A text that shows the cell, and that is accepted and read as a cell to store. -/
structure Reenters (e : Editor) (d : Display σ) (shown : Cell) (text : String) (stored : Cell) :
    Prop where
  shows : ∀ state, ((e.render d 0 shown).run state).1 = text
  accepts : e.check 0 text = .ok ()
  reads : e.parse 0 text = .ok stored

section Lists

variable {type : IntegerType} {items : List Cell}

theorem parse_integer {value : Cell} (h : type.holds value = true) :
    (build .all (.scalar (.integer type))).parse 0 (integerText type value) = .ok value := by
  rw [build, parse]
  exact parseInteger_integerText _ h

theorem listText_integers (packed : Option Nat) (items : List Cell) :
    listText packed (fun item => (build .all (.scalar (.integer type))).render d 0 item)
      (.array items) = pure (", ".intercalate (items.map (integerText type))) := by
  simp only [listText, build, render, Scalar.render, List.mapM_pure, pure_bind]

theorem fitsList_of_holds {value : Cell} (h : type.holds value = true) :
    value.fitsList = true := by
  rcases IntegerType.exists_of_holds h with ⟨n, -, -, -, -, -, rfl, -⟩
  rw [integerCell]
  split <;> rfl

theorem integers_entries (hsize : type.size ∈ [1, 2, 4, 8])
    (h : ∀ item ∈ items, type.holds item = true) :
    ∃ entries : List Entry,
      (∀ entry ∈ entries, entry.editor = build .all (.scalar (.integer type))) ∧
      entries.map (·.value) = items ∧
      ", ".intercalate (items.map (integerText type)) = Entry.join entries := by
  have hplain : Display.plain.Faithful := fun c hc => by cases hc
  have hexact : (Datatype.scalar (.integer type)).isExact = true := decide_eq_true hsize
  have hshows (item : Cell) (hitem : item ∈ items) (state : Unit) :
      (build .all (.scalar (.integer type))).Shows
        (((build .all (.scalar (.integer type))).render Display.plain 0 item).run state).1 item :=
    shows_render hplain hexact (h item hitem) (fitsList_of_holds (h item hitem)) state
  obtain ⟨entries, heditors, hvalues, htext⟩ := listText_entries hshows none ()
  rw [listText_integers] at htext
  exact ⟨entries, heditors, hvalues, htext⟩

theorem parse_sequence_integers (hsize : type.size ∈ [1, 2, 4, 8])
    (h : ∀ item ∈ items, type.holds item = true) :
    (build .all (.sequence (.scalar (.integer type)))).parse 0
      ("(" ++ ", ".intercalate (items.map (integerText type)) ++ ")") = .ok (.array items) := by
  obtain ⟨entries, heditors, rfl, hjoin⟩ := integers_entries hsize h
  have hread := Entry.parseList_words none heditors (by simp)
  rw [hjoin, build_sequence rfl, parse, ofSequence_join]
  exact hread

theorem parse_array_integers (hsize : type.size ∈ [1, 2, 4, 8])
    (h : ∀ item ∈ items, type.holds item = true) {dims : List Nat}
    (hcount : arrayOrder dims = items.length) :
    (build .all (.array (.scalar (.integer type)) dims)).parse 0
      (", ".intercalate (items.map (integerText type))) = .ok (.array items) := by
  obtain ⟨entries, heditors, rfl, hjoin⟩ := integers_entries hsize h
  rw [List.length_map] at hcount
  -- One token for each, so there are as few as the order that a word has counted.
  have hwords : (Entry.words entries).length < wordCount := by
    rw [Entry.length_words heditors, ← hcount]
    exact (Nat.mul_one _).symm ▸ arrayOrder_lt dims
  rw [hjoin]
  exact parse_array_join heditors hcount.symm hwords 0

end Lists

/-- A word of an unsigned integer that is filled up by its sign, or has nothing above its own bytes,
shows as the number of its bytes and is read as that, by itself and in lists. -/
theorem signExtended_reenters {size : Nat} (hsize : size ∈ [1, 2, 4, 8]) (d : Display σ) :
    (∀ n : Int64, n.toInt < 2 ^ (8 * size) →
      ((lowBytes size n).toNat : Int) = n.toInt % 2 ^ (8 * size) ∧
      (build .all (.scalar (.integer ⟨size, false⟩))).Reenters d (.int n)
        (.ofList (decimal (lowBytes size n).toNat)) (.uint (lowBytes size n))) ∧
    ∀ ns : List Int64, (∀ n ∈ ns, n.toInt < 2 ^ (8 * size)) →
      let text := ", ".intercalate (ns.map fun n => .ofList (decimal (lowBytes size n).toNat))
      let stored := Cell.array (ns.map fun n => .uint (lowBytes size n))
      (build .all (.sequence (.scalar (.integer ⟨size, false⟩)))).Reenters d
        (.array (ns.map .int)) ("(" ++ text ++ ")") stored ∧
      ∀ dims, arrayOrder dims = ns.length →
        (build .all (.array (.scalar (.integer ⟨size, false⟩)) dims)).Reenters d
          (.array (ns.map .int)) text stored := by
  constructor
  · intro n hn
    have hread := parse_integer (holds_lowBytes hsize (n := n))
    refine ⟨toNat_lowBytes hsize, fun _ => ?_, check_of_parse hread, hread⟩
    rw [build, render]
    exact integerText_lowBytes hsize hn
  · intro ns hns text stored
    have hshown (packed : Option Nat) :
        listText packed
          (fun item => (build .all (.scalar (.integer ⟨size, false⟩))).render d 0 item)
          (.array (ns.map .int)) = pure text := by
      rw [listText_integers, List.map_map]
      exact congrArg (fun texts => pure (", ".intercalate texts))
        (List.map_congr_left fun n hn => integerText_lowBytes hsize (hns n hn))
    have hholds : ∀ item ∈ ns.map fun n => Cell.uint (lowBytes size n),
        IntegerType.holds ⟨size, false⟩ item = true := by
      intro item hitem
      obtain ⟨n, -, rfl⟩ := List.mem_map.mp hitem
      exact holds_lowBytes hsize
    have hlist : ", ".intercalate ((ns.map fun n => Cell.uint (lowBytes size n)).map
        (integerText ⟨size, false⟩)) = text := by
      rw [List.map_map]
      rfl
    constructor
    · have hread := parse_sequence_integers hsize hholds
      rw [hlist] at hread
      refine ⟨fun state => ?_, check_of_parse hread, hread⟩
      rw [build_sequence rfl, render, hshown]
      rfl
    · intro dims hcount
      have hlength : arrayOrder dims = (ns.map fun n => Cell.uint (lowBytes size n)).length := by
        rw [hcount, List.length_map]
      have hread := parse_array_integers hsize hholds hlength
      rw [hlist] at hread
      refine ⟨fun state => ?_, check_of_parse hread, hread⟩
      rw [build, render, hshown]
      rfl

/-- The least signed word is the middle of the unsigned ones, and a word below zero in two bytes
lies in their upper half. -/
theorem signExtended_reenters_minus :
    (build .all (.scalar (.integer ⟨8, false⟩))).Reenters Display.plain
      (.int (-9223372036854775808)) "9223372036854775808" (.uint 9223372036854775808) ∧
    (build .all (.array (.scalar (.integer ⟨2, false⟩)) [1, 2])).Reenters Display.plain
      (.array [.int (-1), .int 300]) "65535, 300" (.array [.uint 65535, .uint 300]) := by
  obtain ⟨hsingle, -⟩ := signExtended_reenters (show 8 ∈ [1, 2, 4, 8] by decide) Display.plain
  obtain ⟨-, hlists⟩ := signExtended_reenters (show 2 ∈ [1, 2, 4, 8] by decide) Display.plain
  constructor
  · have hlow : lowBytes 8 (-9223372036854775808) = 9223372036854775808 := by decide +kernel
    have hword := (hsingle (-9223372036854775808) (by decide +kernel)).2
    rw [hlow] at hword
    exact hword
  · have hnegative : lowBytes 2 (-1) = 65535 := by decide
    have hsmall : lowBytes 2 300 = 300 := by decide
    have hwords : ∀ n ∈ [(-1 : Int64), 300], n.toInt < 2 ^ (8 * 2) :=
      List.forall_mem_cons.mpr ⟨by decide, List.forall_mem_singleton.mpr (by decide)⟩
    have harray := (hlists [-1, 300] hwords).2 [1, 2] rfl
    simp only [List.map_cons, List.map_nil, hnegative, hsmall] at harray
    exact harray

end Editor

end DatasetGrid
