import LeafSurvey.Proofs.Leaves
import Mathlib.Data.List.Nodup

/-!
# Repeated keys

A document as written may repeat a key within an object, and reading it keeps
the last value of each key. `Document.survivors` are the members that no later
member overwrites, and `Document.lost` lists the leaves that overwriting takes
away: those that are, or lie anywhere inside, an overwritten value.

* `collapseMembers_perm_survivors`: collapsing an object keeps its survivors, in
  some order;
* `leaves_perm`: the leaves of a document as written are those of the collapsed
  document together with the lost ones;
* `leafCount_eq`: so the two leaf counts differ by the number of lost leaves;
* `collapse_eq_self`: where no object repeats a key there is nothing to
  collapse.
-/

namespace LeafSurvey.Document

variable {α β : Type}

/-! ## One object -/

/-- The members whose key no later member has. -/
def survivors : List (String × β) → List (String × β)
  | [] => []
  | m :: rest =>
    if m.1 ∈ rest.map Prod.fst then survivors rest else m :: survivors rest

/-- Putting a member in among distinct keys takes the member of its key out. -/
theorem putMember_perm (key : String) (value : β) {done : List (String × β)}
    (hdone : (done.map Prod.fst).Nodup) :
    (putMember key value done).Perm
      (done.filter (fun m => m.1 ≠ key) ++ [(key, value)]) := by
  induction done with
  | nil => exact .refl _
  | cons m rest ih =>
    obtain ⟨k, v⟩ := m
    rw [List.map_cons, List.nodup_cons] at hdone
    obtain ⟨hk, hrest⟩ := hdone
    by_cases h : k = key
    · subst h
      -- no later member has this key, so the filter takes out the first alone
      have hkeep : rest.filter (fun m => m.1 ≠ k) = rest := by
        rw [List.filter_eq_self]
        intro m hm
        have hne : m.1 ≠ k := fun he => hk (List.mem_map.mpr ⟨m, hm, he⟩)
        simpa using hne
      rw [putMember, if_pos rfl, List.filter_cons_of_neg (by simp), hkeep]
      exact (List.perm_append_singleton _ _).symm
    · rw [putMember, if_neg h, List.filter_cons_of_pos (by simpa using h),
        List.cons_append]
      exact (ih hrest).cons _

theorem nodup_keys_putMember (key : String) (value : β)
    {done : List (String × β)} (hdone : (done.map Prod.fst).Nodup) :
    ((putMember key value done).map Prod.fst).Nodup := by
  rw [keys_putMember]
  by_cases h : key ∈ done.map Prod.fst
  · rwa [if_pos h]
  · rw [if_neg h, ← List.concat_eq_append]
    exact List.Nodup.concat h hdone

/-- Members put in one after the other keep of what was there the keys that none
of them has. -/
theorem foldl_putMember_perm (members : List (String × β))
    {done : List (String × β)} (hdone : (done.map Prod.fst).Nodup) :
    (members.foldl (fun done m => putMember m.1 m.2 done) done).Perm
      (done.filter (fun m => m.1 ∉ members.map Prod.fst)
        ++ survivors members) := by
  induction members generalizing done with
  | nil => simp [survivors]
  | cons m rest ih =>
    have hput := (putMember_perm m.1 m.2 hdone).filter fun x =>
      decide (x.1 ∉ rest.map Prod.fst)
    rw [List.filter_append, List.filter_filter] at hput
    have hkeep : done.filter (fun x => decide (x.1 ∉ rest.map Prod.fst)
        && decide (x.1 ≠ m.1))
        = done.filter fun x => x.1 ∉ (m :: rest).map Prod.fst := by
      refine List.filter_congr fun x _ => ?_
      rw [← Bool.decide_and, List.map_cons]
      exact decide_eq_decide.mpr (by rw [List.mem_cons, not_or, and_comm])
    have hlast : [(m.1, m.2)].filter (fun x => decide (x.1 ∉ rest.map Prod.fst))
        ++ survivors rest
        = survivors (m :: rest) := by
      by_cases h : m.1 ∈ rest.map Prod.fst <;> simp [survivors, h]
    -- the induction is on the members, for any start: the first member put in
    -- is now part of it
    rw [List.foldl_cons]
    refine (ih (nodup_keys_putMember m.1 m.2 hdone)).trans ?_
    rw [← hlast, ← List.append_assoc, ← hkeep]
    exact hput.append_right _

/-- Collapsing an object keeps the last member of each key. -/
theorem collapseMembers_perm_survivors (members : List (String × β)) :
    (collapseMembers members).Perm (survivors members) :=
  foldl_putMember_perm members
    (List.nodup_nil : (([] : List (String × β)).map Prod.fst).Nodup)

/-- A new key comes last. -/
theorem putMember_of_notMem {key : String} (value : β)
    {done : List (String × β)} (h : key ∉ done.map Prod.fst) :
    putMember key value done = done ++ [(key, value)] := by
  induction done with
  | nil => rfl
  | cons m rest ih =>
    rw [List.map_cons, List.mem_cons, not_or] at h
    rw [putMember, if_neg (Ne.symm h.1), ih h.2, List.cons_append]

theorem mem_putMember {key : String} {value : β} {done : List (String × β)}
    {m : String × β} (h : m ∈ putMember key value done) :
    m ∈ done ∨ m = (key, value) := by
  induction done with
  | nil => exact .inr (List.mem_singleton.mp h)
  | cons n rest ih =>
    rw [putMember] at h
    by_cases hkey : n.1 = key
    · rw [if_pos hkey, hkey] at h
      exact (List.mem_cons.mp h).elim .inr fun hm =>
        .inl (List.mem_cons_of_mem _ hm)
    · rw [if_neg hkey] at h
      rcases List.mem_cons.mp h with rfl | hm
      · exact .inl List.mem_cons_self
      · exact (ih hm).imp_left (List.mem_cons_of_mem _)

/-- An object without repeated keys is collapsed as it stands. -/
theorem collapseMembers_of_nodup {members : List (String × β)}
    (h : (members.map Prod.fst).Nodup) : collapseMembers members = members := by
  have hgrow : ∀ (rest done : List (String × β)),
      ((done ++ rest).map Prod.fst).Nodup →
      rest.foldl (fun done m => putMember m.1 m.2 done) done
        = done ++ rest := by
    intro rest
    induction rest with
    | nil => intro done _; rw [List.foldl_nil, List.append_nil]
    | cons m rest ih =>
      intro done hnd
      have hnew : m.1 ∉ done.map Prod.fst := by
        rw [List.map_append, List.map_cons] at hnd
        intro hm
        exact (List.nodup_append.mp hnd).2.2 m.1 hm m.1 List.mem_cons_self rfl
      rw [List.foldl_cons, putMember_of_notMem m.2 hnew, ih, List.append_assoc,
        List.singleton_append]
      rwa [List.append_assoc, List.singleton_append]
  exact hgrow members [] h

/-! ## Whole documents -/

mutual

/-- The leaves that are lost when a document as written is read: those of every
overwritten value and those lost inside the values that stay. -/
def lost (path : Path) (inArray : Bool) : Document α → List (Placed α)
  | leaf _ => []
  | array items => lostOfItems path items
  | object members => lostOfMembers path inArray members

/-- The leaves lost in all items. -/
def lostOfItems (path : Path) : List (Document α) → List (Placed α)
  | [] => []
  | d :: rest => lost path true d ++ lostOfItems path rest

/-- The leaves lost in all members. A member that a later one overwrites loses
all of its leaves. -/
def lostOfMembers (path : Path) (inArray : Bool) :
    List (String × Document α) → List (Placed α)
  | [] => []
  | (key, d) :: rest =>
    (if key ∈ rest.map Prod.fst then leaves (path ++ [key]) inArray d
      else lost (path ++ [key]) inArray d) ++ lostOfMembers path inArray rest

end

theorem keys_collapseEach (members : List (String × Document α)) :
    (collapseEach members).map Prod.fst = members.map Prod.fst := by
  induction members with
  | nil => rfl
  | cons m rest ih => rw [collapseEach, List.map_cons, List.map_cons, ih]

/-- The leaves of a collapsed object are those of its survivors. -/
theorem leaves_collapse_object (path : Path) (inArray : Bool)
    (members : List (String × Document α)) :
    ((object members).collapse.leaves path inArray).Perm
      (leavesOfMembers path inArray (survivors (collapseEach members))) := by
  rw [collapse, leaves, leavesOfMembers_eq_flatMap, leavesOfMembers_eq_flatMap]
  exact (collapseMembers_perm_survivors _).flatMap_right _

/-- Four pieces of a list, the middle two of them exchanged. -/
theorem perm_middle_exchange (a b c d : List β) :
    ((a ++ b) ++ (c ++ d)).Perm ((a ++ c) ++ (b ++ d)) := by
  rw [List.append_assoc, List.append_assoc, ← List.append_assoc b,
    ← List.append_assoc c]
  exact (List.perm_append_comm.append_right d).append_left a

mutual

/-- Every leaf as written is either read or lost. -/
theorem leaves_perm (path : Path) (inArray : Bool) (d : Document α) :
    (d.leaves path inArray).Perm
      (d.collapse.leaves path inArray ++ d.lost path inArray) := by
  cases d with
  | leaf a => exact .refl _
  | array items => exact leavesOfItems_perm path items
  | object members =>
    exact (leavesOfMembers_perm path inArray members).trans
      ((leaves_collapse_object path inArray members).symm.append_right _)

theorem leavesOfItems_perm (path : Path) (items : List (Document α)) :
    (leavesOfItems path items).Perm
      (leavesOfItems path (collapseItems items) ++ lostOfItems path items) := by
  cases items with
  | nil => exact .refl _
  | cons d rest =>
    rw [leavesOfItems, collapseItems, leavesOfItems, lostOfItems]
    exact ((leaves_perm path true d).append
      (leavesOfItems_perm path rest)).trans (perm_middle_exchange _ _ _ _)

theorem leavesOfMembers_perm (path : Path) (inArray : Bool)
    (members : List (String × Document α)) :
    (leavesOfMembers path inArray members).Perm
      (leavesOfMembers path inArray (survivors (collapseEach members))
        ++ lostOfMembers path inArray members) := by
  cases members with
  | nil => exact .refl _
  | cons m rest =>
    obtain ⟨key, d⟩ := m
    have hrest := leavesOfMembers_perm path inArray rest
    rw [leavesOfMembers, collapseEach, survivors, lostOfMembers,
      keys_collapseEach]
    by_cases h : key ∈ rest.map Prod.fst
    · -- the value is overwritten: its leaves move behind those that stay
      rw [if_pos h, if_pos h]
      exact (hrest.append_left _).trans (by
        rw [← List.append_assoc, ← List.append_assoc]
        exact List.perm_append_comm.append_right _)
    · rw [if_neg h, if_neg h, leavesOfMembers]
      exact ((leaves_perm (path ++ [key]) inArray d).append hrest).trans
        (perm_middle_exchange _ _ _ _)

end

/-- A leaf count falls by the number of lost leaves. -/
theorem leafCount_eq (path : Path) (inArray : Bool) (d : Document α) :
    d.leafCount = d.collapse.leafCount + (d.lost path inArray).length := by
  rw [← length_leaves path inArray d, ← length_leaves path inArray d.collapse,
    (leaves_perm path inArray d).length_eq, List.length_append]

/-! ## Documents without repeated keys -/

mutual

/-- Whether no object of a document repeats a key. -/
def hasDistinctKeys : Document α → Bool
  | leaf _ => true
  | array items => itemsHaveDistinctKeys items
  | object members =>
    decide (members.map Prod.fst).Nodup && membersHaveDistinctKeys members

/-- Whether no object in any item repeats a key. -/
def itemsHaveDistinctKeys : List (Document α) → Bool
  | [] => true
  | d :: rest => hasDistinctKeys d && itemsHaveDistinctKeys rest

/-- Whether no object in any member's value repeats a key. -/
def membersHaveDistinctKeys : List (String × Document α) → Bool
  | [] => true
  | (_, d) :: rest => hasDistinctKeys d && membersHaveDistinctKeys rest

end

theorem itemsHaveDistinctKeys_eq_all (items : List (Document α)) :
    itemsHaveDistinctKeys items = items.all hasDistinctKeys := by
  induction items with
  | nil => rfl
  | cons d rest ih => rw [itemsHaveDistinctKeys, ih, List.all_cons]

theorem membersHaveDistinctKeys_eq_all (members : List (String × Document α)) :
    membersHaveDistinctKeys members = members.all fun m =>
      m.2.hasDistinctKeys := by
  induction members with
  | nil => rfl
  | cons m rest ih => rw [membersHaveDistinctKeys, ih, List.all_cons]

mutual

/-- A document without repeated keys is read as it is written. -/
theorem collapse_eq_self {d : Document α} (h : d.hasDistinctKeys = true) :
    d.collapse = d := by
  cases d with
  | leaf a => rfl
  | array items => rw [collapse, collapseItems_eq_self h]
  | object members =>
    rw [hasDistinctKeys, Bool.and_eq_true, decide_eq_true_eq] at h
    rw [collapse, collapseEach_eq_self h.2, collapseMembers_of_nodup h.1]

theorem collapseItems_eq_self {items : List (Document α)}
    (h : itemsHaveDistinctKeys items = true) :
    collapseItems items = items := by
  cases items with
  | nil => rfl
  | cons d rest =>
    rw [itemsHaveDistinctKeys, Bool.and_eq_true] at h
    rw [collapseItems, collapse_eq_self h.1, collapseItems_eq_self h.2]

theorem collapseEach_eq_self {members : List (String × Document α)}
    (h : membersHaveDistinctKeys members = true) :
    collapseEach members = members := by
  cases members with
  | nil => rfl
  | cons m rest =>
    rw [membersHaveDistinctKeys, Bool.and_eq_true] at h
    rw [collapseEach, collapse_eq_self h.1, collapseEach_eq_self h.2]

end

/-- Where no key is repeated, nothing is lost. -/
theorem lost_eq_nil {d : Document α} (path : Path) (inArray : Bool)
    (h : d.hasDistinctKeys = true) :
    d.lost path inArray = [] := by
  have hcount := leafCount_eq path inArray d
  rw [collapse_eq_self h] at hcount
  exact List.length_eq_zero_iff.mp (by omega)

end LeafSurvey.Document
