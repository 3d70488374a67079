import ChassisCooling.Proofs.Requests

/-! # Free data

A document that is kept as free data has its members in ascending order of their keys. Keeping it
once more changes nothing, as long as its numbers are whole: a double may be rewritten.
-/

namespace ChassisCooling.Json

variable {key : String} {value j : Json} {members done : List (Option String × Json)}
  {items : List Json}

/-! ## Members in order -/

/-- Every member has a key, and the keys ascend. -/
structure AreSorted (members : List (Option String × Json)) : Prop where
  named : ∀ m ∈ members, m.1.isSome = true
  ascending : members.Pairwise fun m m' => ∀ k ∈ m.1, ∀ k' ∈ m'.1, k < k'

theorem AreSorted.insertMember (sorted : AreSorted members) :
    AreSorted (insertMember key value members) := by
  induction members with
  | nil => exact ⟨List.forall_mem_singleton.mpr rfl, List.pairwise_singleton ..⟩
  | cons m members ih =>
    obtain ⟨named, ascending⟩ := sorted
    obtain ⟨here, later⟩ := List.forall_mem_cons.mp named
    obtain ⟨first, rest⟩ := List.pairwise_cons.mp ascending
    obtain ⟨other, held⟩ := m
    obtain ⟨name, rfl⟩ := Option.isSome_iff_exists.mp here
    simp only [Json.insertMember]
    split
    · next before =>
      refine ⟨List.forall_mem_cons.mpr ⟨rfl, named⟩, List.pairwise_cons.mpr ⟨?_, ascending⟩⟩
      refine List.forall_mem_cons.mpr ⟨?_, fun m among => ?_⟩
      · rintro k ⟨⟩ k' ⟨⟩
        exact before
      · rintro k ⟨⟩ k' holds
        exact String.lt_trans before (first m among name rfl k' holds)
    split
    · next same =>
      subst same
      exact ⟨List.forall_mem_cons.mpr ⟨rfl, later⟩, List.pairwise_cons.mpr ⟨first, rest⟩⟩
    · next notBefore different =>
      have after : name < key := Std.lt_of_le_of_ne (String.not_lt.mp notBefore) (Ne.symm different)
      have inserted := ih ⟨later, rest⟩
      refine ⟨List.forall_mem_cons.mpr ⟨rfl, inserted.named⟩,
        List.pairwise_cons.mpr ⟨forall_mem_insertMember ?_ first, inserted.ascending⟩⟩
      rintro k ⟨⟩ k' ⟨⟩
      exact after

theorem AreSorted.canonicalMembers (sorted : AreSorted done) :
    AreSorted (canonicalMembers done members) := by
  induction members generalizing done with
  | nil => exact sorted
  | cons m members ih =>
    obtain ⟨key, value⟩ := m
    cases key with
    | none => exact ih sorted
    | some name => exact ih sorted.insertMember

/-- A member whose key comes last is added at the end. -/
theorem insertMember_of_last (named : ∀ m ∈ members, m.1.isSome = true)
    (last : ∀ m ∈ members, ∀ name ∈ m.1, name < key) :
    insertMember key value members = members ++ [(some key, value)] := by
  induction members with
  | nil => rfl
  | cons m members ih =>
    obtain ⟨here, later⟩ := List.forall_mem_cons.mp named
    obtain ⟨before, rest⟩ := List.forall_mem_cons.mp last
    obtain ⟨other, held⟩ := m
    obtain ⟨name, rfl⟩ := Option.isSome_iff_exists.mp here
    have less : name < key := before name rfl
    have different : key ≠ name := by
      rintro rfl
      exact String.lt_irrefl _ less
    rw [insertMember, if_neg (String.lt_asymm less), if_neg different, ih later rest]
    rfl

/-- Members in order whose values are free data stay as they are. -/
theorem canonicalMembers_of_sorted (sorted : AreSorted (done ++ members))
    (fixed : ∀ m ∈ members, m.2.canonical = m.2) :
    canonicalMembers done members = done ++ members := by
  induction members generalizing done with
  | nil => exact (List.append_nil done).symm
  | cons m members ih =>
    obtain ⟨here, later⟩ := List.forall_mem_cons.mp fixed
    obtain ⟨named, ascending⟩ := sorted
    obtain ⟨key, value⟩ := m
    obtain ⟨name, rfl⟩ := Option.isSome_iff_exists.mp
      (named (key, value) (List.mem_append_right _ (List.mem_cons_self ..)))
    have last : ∀ m ∈ done, ∀ k ∈ m.1, k < name := fun m among k holds =>
      (List.pairwise_append.mp ascending).2.2 m among _ (List.mem_cons_self ..) k holds name rfl
    have inserted : insertMember name value done = done ++ [(some name, value)] :=
      insertMember_of_last (fun m among => named m (List.mem_append_left _ among)) last
    have moved : done ++ (some name, value) :: members =
        done ++ [(some name, value)] ++ members := by
      rw [List.append_assoc, List.singleton_append]
    rw [canonicalMembers, here, inserted, moved]
    exact ih (moved ▸ ⟨named, ascending⟩) later

/-! ## Documents of whole numbers -/

/-- A number is written as a whole number of at most 64 bits. -/
def Numeral.IsInt (n : Numeral) : Prop :=
  n.toInt?.isSome = true

theorem canonical_number {n : Numeral} (int : n.IsInt) : (number n).canonical = number n := by
  rw [canonical]
  exact if_pos int

theorem canonicalItems_of_forall (fixed : ∀ item ∈ items, item.canonical = item) :
    canonicalItems items = items := by
  induction items with
  | nil => rfl
  | cons item items ih =>
    obtain ⟨here, later⟩ := List.forall_mem_cons.mp fixed
    rw [canonicalItems, here, ih later]

/-- Free data kept as free data is the same. -/
theorem IsMadeOf.canonical_canonical (made : j.IsMadeOf Numeral.IsInt) :
    j.canonical.canonical = j.canonical := by
  induction made with
  | null | bool | string => rfl
  | number int => rw [canonical_number int, canonical_number int]
  | array _ ih =>
    rw [Json.canonical, Json.canonical]
    exact congrArg Json.array (canonicalItems_of_forall (forall_mem_canonicalItems ih))
  | object _ _ ih =>
    have sorted : ∀ members, AreSorted (canonicalMembers [] members) :=
      fun _ => AreSorted.canonicalMembers ⟨List.forall_mem_nil _, List.Pairwise.nil⟩
    rw [Json.canonical, Json.canonical]
    refine congrArg Json.object ?_
    exact canonicalMembers_of_sorted (sorted _)
      (forall_mem_canonicalMembers (List.forall_mem_nil _) fun m among _ _ => ih m among)

theorem membersWhole_iff {depth : Nat} :
    membersWhole depth members = true ↔
      ∀ m ∈ members, m.1.isSome = true ∧ m.2.isWhole depth = true := by
  induction members with
  | nil => simp [membersWhole]
  | cons m members ih => simp [membersWhole, ih]

theorem areWhole_iff {depth : Nat} :
    areWhole depth items = true ↔ ∀ item ∈ items, item.isWhole depth = true := by
  induction items with
  | nil => simp [areWhole]
  | cons item items ih => simp [areWhole, ih]

/-- What can be kept is still so as free data. -/
theorem IsMadeOf.isWhole_canonical {depth : Nat} (made : j.IsMadeOf Numeral.IsInt)
    (whole : j.isWhole depth = true) : j.canonical.isWhole depth = true := by
  induction made generalizing depth with
  | null | bool | string => exact whole
  | number int => rwa [canonical_number int]
  | array _ ih =>
    cases depth with
    | zero => cases whole
    | succ depth =>
      have each := areWhole_iff.mp whole
      exact areWhole_iff.mpr (forall_mem_canonicalItems fun item among =>
        ih item among (each item among))
  | object _ _ ih =>
    cases depth with
    | zero => cases whole
    | succ depth =>
      have each := membersWhole_iff.mp whole
      exact membersWhole_iff.mpr (forall_mem_canonicalMembers nofun fun m among _ _ =>
        ⟨rfl, ih m among (each m among).2⟩)

end ChassisCooling.Json
