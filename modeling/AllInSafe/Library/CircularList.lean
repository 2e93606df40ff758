import Mathlib

/-!
# Circular lists

A list in an array of fixed size that grows at its front, and loses its last elements when the array is full.
-/

namespace AllInSafe.Library

/-- `head` is where the front of the list stands in `cells`. -/
structure CircularList (α : Type) where
  cells : List α
  head : Nat
  size : Nat
  head_lt : head < cells.length
  size_le : size ≤ cells.length

namespace CircularList

variable {α : Type} {l : CircularList α} {x v : α} {i j : Nat}

/-- An empty list with room for `cap` elements. -/
def alloc (cap : Nat) (x : α) (h : 0 < cap) : CircularList α where
  cells := List.replicate cap x
  head := 0
  size := 0
  head_lt := by rwa [List.length_replicate]
  size_le := Nat.zero_le _

/-- The cell `i` places behind the cell `head`. -/
def modulo_add (head i cap : Nat) : Nat := if head + i ≥ cap then head + i - cap else head + i

theorem modulo_add_lt {head cap : Nat} (hhead : head < cap) (hi : i ≤ cap) : modulo_add head i cap < cap := by
  unfold modulo_add
  split <;> omega

def index (l : CircularList α) (i : Nat) : Nat := modulo_add l.head i l.cells.length

theorem index_lt (h : i < l.size) : l.index i < l.cells.length :=
  modulo_add_lt l.head_lt (le_trans h.le l.size_le)

def item (l : CircularList α) (i : Nat) (h : i < l.size) : α := l.cells.get ⟨l.index i, index_lt h⟩

def set (l : CircularList α) (i : Nat) (v : α) : CircularList α where
  cells := l.cells.set (l.index i) v
  head := l.head
  size := l.size
  head_lt := by rw [List.length_set]; exact l.head_lt
  size_le := by rw [List.length_set]; exact l.size_le

/-- The cell before the front becomes the front. -/
def push (l : CircularList α) (x : α) : CircularList α where
  cells := l.cells.set (if l.head = 0 then l.cells.length - 1 else l.head - 1) x
  head := if l.head = 0 then l.cells.length - 1 else l.head - 1
  size := min (l.size + 1) l.cells.length
  head_lt := by
    have hhead := l.head_lt
    rw [List.length_set]
    split <;> omega
  size_le := by rw [List.length_set]; exact Nat.min_le_right _ _

def reset (l : CircularList α) : CircularList α where
  cells := l.cells
  head := 0
  size := 0
  head_lt := Nat.zero_lt_of_lt l.head_lt
  size_le := Nat.zero_le _

/-- The elements from the front on. -/
def toList (l : CircularList α) : List α := List.ofFn fun i : Fin l.size => l.item i.val i.isLt

@[simp] theorem size_set : (l.set i v).size = l.size := rfl

@[simp] theorem length_cells_set : (l.set i v).cells.length = l.cells.length := by simp [set]

@[simp] theorem size_push : (l.push x).size = min (l.size + 1) l.cells.length := rfl

@[simp] theorem length_cells_push : (l.push x).cells.length = l.cells.length := by simp [push]

@[simp] theorem size_reset : l.reset.size = 0 := rfl

@[simp] theorem length_cells_reset : l.reset.cells.length = l.cells.length := rfl

@[simp] theorem length_toList (l : CircularList α) : l.toList.length = l.size := by simp [toList]

theorem getElem?_toList (h : i < l.size) : l.toList[i]? = some (l.item i h) := by simp [toList, h]

theorem toList_reset : l.reset.toList = [] := rfl

theorem index_inj (hi : i < l.size) (hj : j < l.size) (h : l.index i = l.index j) : i = j := by
  have hsize := l.size_le
  have hhead := l.head_lt
  unfold index modulo_add at h
  split at h <;> split at h <;> omega

theorem item_set (hi : i < l.size) (hj : j < l.size) :
    (l.set i v).item j hj = if i = j then v else l.item j hj := by
  have hindex : (l.set i v).index j = l.index j := by simp [index, set]
  simp only [item, List.get_eq_getElem, hindex]
  simp only [set, List.getElem_set]
  by_cases h : i = j
  · simp [h]
  · rw [if_neg fun heq => h (index_inj hi hj heq), if_neg h]

/-- The front is the new element, and the others are one place further behind. -/
theorem item_push (hj : j < (l.push x).size) :
    (l.push x).item j hj = if h : j = 0 then x else l.item (j - 1) (by rw [size_push] at hj; omega) := by
  have hhead := l.head_lt
  rw [size_push] at hj
  have hindex : (l.push x).index j =
      modulo_add (if l.head = 0 then l.cells.length - 1 else l.head - 1) j l.cells.length := by simp [index, push]
  simp only [item, List.get_eq_getElem, hindex]
  simp only [push, List.getElem_set]
  by_cases h : j = 0
  · subst h
    rw [if_pos (by unfold modulo_add; split <;> split <;> omega), dif_pos rfl]
  · rw [if_neg (by unfold modulo_add; split <;> split <;> omega), dif_neg h]
    congr 1
    unfold index modulo_add
    split <;> split <;> split <;> omega

theorem toList_set (hi : i < l.size) : (l.set i v).toList = l.toList.set i v := by
  apply List.ext_getElem (by simp)
  intro j hj hj'
  rw [length_toList] at hj
  simp only [toList, List.getElem_ofFn, List.getElem_set]
  exact item_set hi hj

theorem toList_push : (l.push x).toList = (x :: l.toList).take l.cells.length := by
  apply List.ext_getElem (by simp [Nat.min_comm])
  intro j hj hj'
  rw [length_toList] at hj
  simp only [toList, List.getElem_ofFn, List.getElem_take]
  rw [item_push hj]
  cases j with
  | zero => rfl
  | succ j => simp

end CircularList

end AllInSafe.Library
