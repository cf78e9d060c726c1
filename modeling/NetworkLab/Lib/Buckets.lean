import Mathlib.Data.List.Nodup
import Mathlib.Logic.Function.Basic

/-!
# Tables of buckets

A hash table as the contents of its buckets, in the order of their lists.  Entries
are compared by a key; `DistinctKeys` says that no key is used twice, in one bucket
or across two.
-/
set_option autoImplicit false

namespace Lib

variable {ι α κ : Type*}

abbrev Buckets (ι α : Type*) := ι → List α

namespace Buckets

def Member (table : Buckets ι α) (x : α) : Prop := ∃ b, x ∈ table b

structure DistinctKeys (key : α → κ) (table : Buckets ι α) : Prop where
  within : ∀ b, ((table b).map key).Nodup
  across : ∀ b c, b ≠ c → ∀ x ∈ table b, ∀ y ∈ table c, key x ≠ key y

theorem distinctKeys_empty (key : α → κ) : DistinctKeys key (fun _ : ι => []) where
  within := fun _ => List.nodup_nil
  across := fun b c distinct x member => by cases member

/-- Removing entries and changing entries without changing their keys. -/
theorem DistinctKeys.of_sublist {key : α → κ} {before after : Buckets ι α}
    (distinct : DistinctKeys key before)
    (sublist : ∀ b, ((after b).map key).Sublist ((before b).map key)) :
    DistinctKeys key after where
  within := fun b => (distinct.within b).sublist (sublist b)
  across := by
    intro b c different x xMember y yMember same
    obtain ⟨x', x'Member, x'Key⟩ :=
      List.mem_map.mp ((sublist b).subset (List.mem_map_of_mem xMember))
    obtain ⟨y', y'Member, y'Key⟩ :=
      List.mem_map.mp ((sublist c).subset (List.mem_map_of_mem yMember))
    exact distinct.across b c different x' x'Member y' y'Member
      (x'Key.trans (same.trans y'Key.symm))

/-- The bucket of an entry and its place in it are determined by its key. -/
theorem DistinctKeys.bucket_eq {key : α → κ} {table : Buckets ι α}
    (distinct : DistinctKeys key table) {b c : ι} {x y : α} (xMember : x ∈ table b)
    (yMember : y ∈ table c) (same : key x = key y) : b = c := by
  by_contra different
  exact distinct.across b c different x xMember y yMember same

theorem find?_of_nodup {key : α → κ} {entries : List α} (nodup : (entries.map key).Nodup)
    {p : α → Bool} {x : α} (member : x ∈ entries) (matched : p x = true)
    (only : ∀ y ∈ entries, p y = true → key y = key x) : entries.find? p = some x := by
  cases found : entries.find? p with
  | none => exact absurd matched (List.find?_eq_none.mp found x member)
  | some y =>
      have yMember := List.mem_of_find?_eq_some found
      have same := only y yMember (List.find?_some found)
      rw [List.inj_on_of_nodup_map nodup yMember member same]

section Update

variable [DecidableEq ι]

def append (table : Buckets ι α) (b : ι) (x : α) : Buckets ι α :=
  Function.update table b (table b ++ [x])

@[simp] theorem append_same (table : Buckets ι α) (b : ι) (x : α) :
    table.append b x b = table b ++ [x] := Function.update_self ..

theorem append_of_ne (table : Buckets ι α) {b c : ι} (x : α) (different : c ≠ b) :
    table.append b x c = table c := Function.update_of_ne different ..

theorem mem_append {table : Buckets ι α} {b c : ι} {x y : α} :
    y ∈ table.append b x c ↔ y ∈ table c ∨ c = b ∧ y = x := by
  by_cases same : c = b
  · subst same
    simp
  · simp [append_of_ne table x same, same]

theorem sublist_append (table : Buckets ι α) (b : ι) (x : α) (c : ι) :
    (table c).Sublist (table.append b x c) := by
  by_cases same : c = b
  · subst same
    simp
  · rw [append_of_ne table x same]

/-- A new entry keeps the keys distinct exactly when no entry has its key. -/
theorem distinctKeys_append_iff {key : α → κ} {table : Buckets ι α} {b : ι} {x : α} :
    DistinctKeys key (table.append b x) ↔
      DistinctKeys key table ∧ ∀ y, table.Member y → key y ≠ key x := by
  constructor
  · intro distinct
    refine ⟨distinct.of_sublist fun c => (sublist_append table b x c).map key, ?_⟩
    rintro y ⟨c, member⟩ same
    have new : x ∈ table.append b x b := mem_append.mpr (Or.inr ⟨rfl, rfl⟩)
    obtain rfl := distinct.bucket_eq (mem_append.mpr (Or.inl member)) new same
    have nodup := distinct.within c
    rw [append_same, List.map_append, List.nodup_append] at nodup
    exact nodup.2.2 _ (List.mem_map_of_mem member) _ (List.mem_singleton_self _) same
  · rintro ⟨distinct, fresh⟩
    constructor
    · intro c
      by_cases same : c = b
      · subst same
        rw [append_same, List.map_append]
        refine List.Nodup.append (distinct.within c) (List.nodup_singleton _) ?_
        intro k old new
        obtain ⟨y, member, rfl⟩ := List.mem_map.mp old
        exact fresh y ⟨c, member⟩ (List.mem_singleton.mp new)
      · rw [append_of_ne table x same]
        exact distinct.within c
    · intro c d different y yMember z zMember
      rcases mem_append.mp yMember with yOld | ⟨rfl, rfl⟩
      · rcases mem_append.mp zMember with zOld | ⟨rfl, rfl⟩
        · exact distinct.across c d different y yOld z zOld
        · exact fresh y ⟨c, yOld⟩
      · rcases mem_append.mp zMember with zOld | ⟨rfl, -⟩
        · exact fun same => fresh z ⟨d, zOld⟩ same.symm
        · exact absurd rfl different

end Update

end Buckets

section UpdateFirst

/-- Change the first entry that matches, as a loop that stops at it does. -/
def updateFirst (p : α → Bool) (f : α → α) : List α → List α
  | [] => []
  | x :: rest => if p x then f x :: rest else x :: updateFirst p f rest

theorem map_updateFirst {key : α → κ} {f : α → α} (p : α → Bool) (kept : ∀ x, key (f x) = key x)
    (entries : List α) : (updateFirst p f entries).map key = entries.map key := by
  induction entries with
  | nil => rfl
  | cons x rest ih =>
      unfold updateFirst
      split_ifs
      · simp [kept]
      · simp [ih]

theorem changed_mem_updateFirst {p : α → Bool} (f : α → α) {entries : List α} {x : α}
    (found : entries.find? p = some x) : f x ∈ updateFirst p f entries := by
  induction entries with
  | nil => cases found
  | cons y rest ih =>
      unfold updateFirst
      by_cases first : p y = true
      · rw [List.find?_cons_of_pos first] at found
        cases Option.some.inj found
        rw [if_pos first]
        exact List.mem_cons_self
      · rw [List.find?_cons_of_neg first] at found
        rw [if_neg first]
        exact List.mem_cons_of_mem _ (ih found)

/-- Where no key occurs twice, every entry but the one that is changed stays, and has
another key. -/
theorem mem_updateFirst {key : α → κ} {p : α → Bool} {f : α → α} {entries : List α} {y : α}
    (nodup : (entries.map key).Nodup) (member : y ∈ updateFirst p f entries) :
    (∃ x, entries.find? p = some x ∧ y = f x) ∨
      (y ∈ entries ∧ ∀ x, entries.find? p = some x → key y ≠ key x) := by
  induction entries with
  | nil => cases member
  | cons x rest ih =>
      obtain ⟨absent, nodup⟩ := List.nodup_cons.mp nodup
      unfold updateFirst at member
      by_cases first : p x = true
      · rw [if_pos first] at member
        rw [List.find?_cons_of_pos first]
        rcases List.mem_cons.mp member with changed | behind
        · exact .inl ⟨x, rfl, changed⟩
        · refine .inr ⟨List.mem_cons_of_mem _ behind, ?_⟩
          intro z found same
          cases Option.some.inj found
          exact absent (same ▸ List.mem_map_of_mem behind)
      · rw [if_neg first] at member
        rw [List.find?_cons_of_neg first]
        rcases List.mem_cons.mp member with here | behind
        · refine .inr ⟨here ▸ List.mem_cons_self, ?_⟩
          intro z found same
          rw [here] at same
          exact absent (same ▸ List.mem_map_of_mem (List.mem_of_find?_eq_some found))
        · cases ih nodup behind with
          | inl changed => exact .inl changed
          | inr kept => exact .inr ⟨List.mem_cons_of_mem _ kept.1, kept.2⟩

theorem updateFirst_eq_self {p : α → Bool} {f : α → α} {entries : List α}
    (fixed : ∀ x ∈ entries, f x = x) : updateFirst p f entries = entries := by
  induction entries with
  | nil => rfl
  | cons x rest ih =>
      unfold updateFirst
      rw [fixed x List.mem_cons_self, ih fun y member => fixed y (List.mem_cons_of_mem _ member)]
      split_ifs <;> rfl

end UpdateFirst

end Lib
