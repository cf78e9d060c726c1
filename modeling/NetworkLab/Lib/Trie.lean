import Mathlib.Logic.Function.Iterate

/-!
# Tries of nodes and null pointers

A node holds data and has a child, possibly null, for every key.  Descents follow the
keys that `key` reads off a state and `shift` steps through, as in a loop that shifts
an address.
-/
set_option autoImplicit false

namespace Lib

inductive Trie (κ δ : Type)
  | null
  | node (data : δ) (child : κ → Trie κ δ)

namespace Trie

variable {κ δ ε σ : Type}

def isNull : Trie κ δ → Bool
  | null => true
  | node _ _ => false

def single (data : δ) : Trie κ δ := node data fun _ => null

def get? : Trie κ δ → List κ → Option δ
  | null, _ => none
  | node data _, [] => some data
  | node _ child, k :: rest => (child k).get? rest

def sub : Trie κ δ → List κ → Trie κ δ
  | t, [] => t
  | null, _ :: _ => null
  | node _ child, k :: rest => (child k).sub rest

def map (f : δ → ε) : Trie κ δ → Trie κ ε
  | null => null
  | node data child => node (f data) fun k => (child k).map f

@[simp] theorem isNull_null : (null : Trie κ δ).isNull = true := rfl

@[simp] theorem isNull_node (data : δ) (child : κ → Trie κ δ) :
    (node data child).isNull = false := rfl

@[simp] theorem isNull_single (data : δ) : (single data : Trie κ δ).isNull = false := rfl

theorem isNull_iff {t : Trie κ δ} : t.isNull = true ↔ t = null := by
  cases t <;> simp

@[simp] theorem isNull_map (f : δ → ε) (t : Trie κ δ) : (t.map f).isNull = t.isNull := by
  cases t <;> rfl

@[simp] theorem get?_null (path : List κ) : (null : Trie κ δ).get? path = none := by
  cases path <;> rfl

@[simp] theorem get?_node_nil (data : δ) (child : κ → Trie κ δ) :
    (node data child).get? [] = some data := rfl

@[simp] theorem get?_node_cons (data : δ) (child : κ → Trie κ δ) (k : κ) (rest : List κ) :
    (node data child).get? (k :: rest) = (child k).get? rest := rfl

theorem isSome_get?_nil (t : Trie κ δ) : (t.get? []).isSome = !t.isNull := by
  cases t <;> rfl

@[simp] theorem sub_nil (t : Trie κ δ) : t.sub [] = t := by
  cases t <;> rfl

@[simp] theorem sub_null (path : List κ) : (null : Trie κ δ).sub path = null := by
  cases path <;> rfl

theorem not_isNull_of_sub {t : Trie κ δ} {path : List κ} {data : δ} {child : κ → Trie κ δ}
    (reached : t.sub path = node data child) : ¬ t.isNull := by
  intro isNull
  rw [isNull_iff.mp isNull, sub_null] at reached
  cases reached

@[simp] theorem sub_node_cons (data : δ) (child : κ → Trie κ δ) (k : κ) (rest : List κ) :
    (node data child).sub (k :: rest) = (child k).sub rest := rfl

theorem sub_append (t : Trie κ δ) (first second : List κ) :
    t.sub (first ++ second) = (t.sub first).sub second := by
  induction first generalizing t with
  | nil => simp
  | cons k rest ih =>
      cases t with
      | null => simp
      | node data child => simpa using ih (child k)

theorem get?_eq_sub (t : Trie κ δ) (path : List κ) : t.get? path = (t.sub path).get? [] := by
  induction path generalizing t with
  | nil => simp
  | cons k rest ih =>
      cases t with
      | null => simp
      | node data child => simpa using ih (child k)

theorem get?_append (t : Trie κ δ) (first second : List κ) :
    t.get? (first ++ second) = (t.sub first).get? second := by
  rw [get?_eq_sub, sub_append, ← get?_eq_sub]

theorem sub_map (f : δ → ε) (t : Trie κ δ) (path : List κ) :
    (t.map f).sub path = (t.sub path).map f := by
  induction path generalizing t with
  | nil => simp
  | cons k rest ih =>
      cases t with
      | null => rfl
      | node data child => simpa [map] using ih (child k)

theorem get?_nil_eq_none {t : Trie κ δ} : t.get? [] = none ↔ t.isNull = true := by
  cases t <;> simp

theorem sub_of_get? {t : Trie κ δ} {path : List κ} {data : δ} (found : t.get? path = some data) :
    ∃ child, t.sub path = node data child := by
  rw [get?_eq_sub] at found
  cases reached : t.sub path with
  | null => simp [reached] at found
  | node data' child =>
      obtain rfl : data' = data := by simpa [reached] using found
      exact ⟨child, rfl⟩

theorem ext_get? {t u : Trie κ δ} (same : ∀ path, t.get? path = u.get? path) : t = u := by
  induction t generalizing u with
  | null =>
      cases u with
      | null => rfl
      | node data child => simpa using same []
  | node data child ih =>
      cases u with
      | null => simpa using same []
      | node data' child' =>
          have sameData : data = data' := by simpa using same []
          have sameChild : child = child' := funext fun k => ih k fun path => same (k :: path)
          rw [sameData, sameChild]

section Walk

variable (key : σ → κ) (shift : σ → σ)

/-- The data of the last node on the way down, or `last` if there is none. -/
def walk : Trie κ δ → σ → δ → δ
  | null, _, last => last
  | node data child, s, _ => walk (child (key s)) (shift s) data

def path : Nat → σ → List κ
  | 0, _ => []
  | n + 1, s => key s :: path n (shift s)

@[simp] theorem length_path (n : Nat) (s : σ) : (path key shift n s).length = n := by
  induction n generalizing s with
  | zero => rfl
  | succ n ih => simp [path, ih]

theorem path_add (m n : Nat) (s : σ) :
    path key shift (m + n) s = path key shift m s ++ path key shift n (shift^[m] s) := by
  induction m generalizing s with
  | zero => simp [path]
  | succ m ih => simp [path, Nat.succ_add, ih]

theorem path_succ (n : Nat) (s : σ) :
    path key shift (n + 1) s = path key shift n s ++ [key (shift^[n] s)] :=
  path_add key shift n 1 s

theorem walk_of_get? {t : Trie κ δ} {s : σ} {last data : δ} {n : Nat}
    (found : t.get? (path key shift n s) = some data)
    (ends : t.get? (path key shift (n + 1) s) = none) : t.walk key shift s last = data := by
  induction n generalizing t s last with
  | zero =>
      cases t with
      | null => simp at found
      | node data' child =>
          obtain rfl : data' = data := by simpa [path] using found
          have missing : (child (key s)).isNull := by simpa [path, get?_nil_eq_none] using ends
          simp [walk, isNull_iff.mp missing]
  | succ n ih =>
      cases t with
      | null => simp at found
      | node data' child => exact ih (t := child (key s)) found ends

end Walk

end Trie

end Lib
