/-
# Numbered cells that are used again

A `Slab` keeps values in numbered cells.  `insert` fills a vacant cell and changes no other, `erase`
vacates exactly one.  A number therefore names a value only while that value stays: later the
same number may name another one, which is why the users of a slab (`Queue`) put an identity
beside it.  Which vacant cell is filled is left open, so nothing that is proved of any slab depends
on it.

An `Arena` is the slab that runs: it fills the cell that was vacated last, or a cell never used
before when none is vacant.  The type carries the one invariant that every operation keeps: no
vacant cell is occupied and no cell is vacant twice.
-/
import Std.Data.ExtTreeMap

namespace WorkerPool

/-- Values in numbered cells, and what its users rely on. -/
class Slab (S : Type → Type) where
  /-- No cell is occupied. -/
  empty {β : Type} : S β
  /-- What a cell holds. -/
  get? {β : Type} : S β → Nat → Option β
  /-- The occupied cells. -/
  cells {β : Type} : S β → List Nat
  /-- The number of occupied cells. -/
  size {β : Type} : S β → Nat
  /-- The cell that the next `insert` fills. -/
  nextCell {β : Type} : S β → Nat
  /-- Fills `nextCell`. -/
  insert {β : Type} : S β → β → S β
  /-- Changes what a cell holds; nothing happens if it is vacant. -/
  modify {β : Type} : S β → Nat → (β → β) → S β
  /-- Vacates a cell; nothing happens if it is vacant. -/
  erase {β : Type} : S β → Nat → S β
  get?_empty {β : Type} (cell : Nat) : get? (empty : S β) cell = none
  mem_cells {β : Type} {a : S β} {cell : Nat} : cell ∈ cells a ↔ (get? a cell).isSome
  nodup_cells {β : Type} (a : S β) : (cells a).Nodup
  size_eq {β : Type} (a : S β) : size a = (cells a).length
  get?_nextCell {β : Type} (a : S β) : get? a (nextCell a) = none
  get?_insert {β : Type} (a : S β) (b : β) (cell : Nat) :
    get? (insert a b) cell = if cell = nextCell a then some b else get? a cell
  get?_modify {β : Type} (a : S β) (cell c : Nat) (f : β → β) :
    get? (modify a cell f) c = if c = cell then (get? a c).map f else get? a c
  get?_erase {β : Type} (a : S β) (cell c : Nat) :
    get? (erase a cell) c = if c = cell then none else get? a c

namespace Slab

variable {S : Type → Type} [Slab S] {β : Type}

attribute [simp] get?_empty get?_nextCell

/-! ## 1. Counting the occupied cells -/

/-- Two lists without repetition that have the same members are as long as each other. -/
private theorem length_eq_of_mem_iff {l m : List Nat} (hl : l.Nodup) (hm : m.Nodup)
    (h : ∀ cell, cell ∈ l ↔ cell ∈ m) : l.length = m.length :=
  ((List.perm_ext_iff_of_nodup hl hm).mpr h).length_eq

@[simp] theorem size_empty : size (empty : S β) = 0 := by
  rw [size_eq, List.length_eq_zero_iff, List.eq_nil_iff_forall_not_mem]
  intro cell
  simp [mem_cells]

@[simp] theorem size_insert (a : S β) (b : β) : size (insert a b) = size a + 1 := by
  have hfresh : nextCell a ∉ cells a := by simp [mem_cells]
  rw [size_eq, size_eq, ← List.length_cons (a := nextCell a)]
  refine length_eq_of_mem_iff (nodup_cells _) (List.nodup_cons.mpr ⟨hfresh, nodup_cells a⟩) ?_
  intro cell
  rw [mem_cells, get?_insert, List.mem_cons, mem_cells]
  by_cases hcell : cell = nextCell a <;> simp [hcell]

@[simp] theorem size_modify (a : S β) (cell : Nat) (f : β → β) :
    size (modify a cell f) = size a := by
  rw [size_eq, size_eq]
  refine length_eq_of_mem_iff (nodup_cells _) (nodup_cells a) fun c => ?_
  rw [mem_cells, mem_cells, get?_modify]
  split <;> simp

theorem size_erase (a : S β) (cell : Nat) :
    size (erase a cell) = if (get? a cell).isSome then size a - 1 else size a := by
  rw [size_eq, size_eq]
  have hmem (c : Nat) : c ∈ cells (erase a cell) ↔ c ∈ (cells a).erase cell := by
    rw [mem_cells, get?_erase, (nodup_cells a).mem_erase_iff, mem_cells]
    by_cases hc : c = cell <;> simp [hc]
  rw [length_eq_of_mem_iff (nodup_cells _) ((nodup_cells a).erase cell) hmem,
    List.length_erase]
  simp only [mem_cells]

end Slab

/-- Values in numbered cells, with the vacated numbers, last vacated first.  Cells from
`fresh` on have never been used. -/
structure Arena (β : Type) where
  cells : Std.ExtTreeMap Nat β
  vacant : List Nat
  fresh : Nat
  cells_lt : ∀ cell ∈ cells, cell < fresh
  vacant_lt : ∀ cell ∈ vacant, cell < fresh
  vacant_empty : ∀ cell ∈ vacant, cell ∉ cells
  vacant_nodup : vacant.Nodup

namespace Arena

variable {β : Type}

/-! ## 2. The slab that fills the cell vacated last -/

/-- No cell is used yet. -/
def empty : Arena β where
  cells := ∅
  vacant := []
  fresh := 0
  cells_lt := by simp
  vacant_lt := by simp
  vacant_empty := by simp
  vacant_nodup := List.nodup_nil

/-- The number of occupied cells. -/
def size (a : Arena β) : Nat := a.cells.size

/-- What cell `cell` holds. -/
def get? (a : Arena β) (cell : Nat) : Option β := a.cells[cell]?

/-- The cell that the next `insert` fills. -/
def nextCell (a : Arena β) : Nat := a.vacant.headD a.fresh

theorem nextCell_notMem (a : Arena β) : a.nextCell ∉ a.cells := by
  unfold nextCell
  cases hv : a.vacant with
  | nil => exact fun h => Nat.lt_irrefl _ (a.cells_lt _ h)
  | cons cell rest => exact a.vacant_empty cell (by simp [hv])

/-- How many cells have been used once `nextCell` is filled. -/
def nextFresh (a : Arena β) : Nat := if a.vacant.isEmpty then a.fresh + 1 else a.fresh

theorem fresh_le_nextFresh (a : Arena β) : a.fresh ≤ a.nextFresh := by
  unfold nextFresh
  split
  · exact Nat.le_succ _
  · exact Nat.le_refl _

theorem nextCell_lt (a : Arena β) : a.nextCell < a.nextFresh := by
  unfold nextCell nextFresh
  cases hv : a.vacant with
  | nil => exact Nat.lt_succ_self _
  | cons cell rest => exact a.vacant_lt cell (by simp [hv])

/-- The cells that stay vacant are not the one that is filled. -/
theorem ne_nextCell (a : Arena β) : ∀ cell ∈ a.vacant.tail, cell ≠ a.nextCell := by
  intro cell h
  unfold nextCell
  have hnd := a.vacant_nodup
  cases hv : a.vacant with
  | nil => rw [hv] at h; exact absurd h List.not_mem_nil
  | cons first rest =>
    rw [hv] at h hnd
    rintro rfl
    exact (List.nodup_cons.mp hnd).1 h

/-- Puts `b` into `nextCell`. -/
def insert (a : Arena β) (b : β) : Arena β where
  cells := a.cells.insert a.nextCell b
  vacant := a.vacant.tail
  fresh := a.nextFresh
  cells_lt := by
    intro cell h
    rcases Std.ExtTreeMap.mem_insert.mp h with h | h
    · exact Nat.compare_eq_eq.mp h ▸ a.nextCell_lt
    · exact Nat.lt_of_lt_of_le (a.cells_lt cell h) a.fresh_le_nextFresh
  vacant_lt := fun cell h =>
    Nat.lt_of_lt_of_le (a.vacant_lt cell (List.mem_of_mem_tail h)) a.fresh_le_nextFresh
  vacant_empty := by
    intro cell h hm
    rcases Std.ExtTreeMap.mem_insert.mp hm with hm | hm
    · exact a.ne_nextCell cell h (Nat.compare_eq_eq.mp hm).symm
    · exact a.vacant_empty cell (List.mem_of_mem_tail h) hm
  vacant_nodup := a.vacant_nodup.tail

/-- Vacates cell `cell`; nothing happens if it is empty. -/
def erase (a : Arena β) (cell : Nat) : Arena β :=
  if h : cell ∈ a.cells then
    { cells := a.cells.erase cell
      vacant := cell :: a.vacant
      fresh := a.fresh
      cells_lt := fun s hs => a.cells_lt s (Std.ExtTreeMap.mem_of_mem_erase hs)
      vacant_lt := by
        intro s hs
        rcases List.mem_cons.mp hs with rfl | hs
        · exact a.cells_lt _ h
        · exact a.vacant_lt s hs
      vacant_empty := by
        intro s hs
        rcases List.mem_cons.mp hs with rfl | hs
        · simp
        · exact fun hm => a.vacant_empty s hs (Std.ExtTreeMap.mem_of_mem_erase hm)
      vacant_nodup := List.nodup_cons.mpr ⟨fun hm => a.vacant_empty cell hm h, a.vacant_nodup⟩ }
  else a

/-- Applies `f` to what cell `cell` holds. -/
def modify (a : Arena β) (cell : Nat) (f : β → β) : Arena β :=
  { a with
    cells := a.cells.modify cell f
    cells_lt := fun s hs => a.cells_lt s (Std.ExtTreeMap.mem_modify.mp hs)
    vacant_empty := fun s hs hm => a.vacant_empty s hs (Std.ExtTreeMap.mem_modify.mp hm) }

theorem get?_insert (a : Arena β) (b : β) (cell : Nat) :
    (a.insert b).get? cell = if cell = a.nextCell then some b else a.get? cell := by
  simp only [get?, insert, Std.ExtTreeMap.getElem?_insert, Nat.compare_eq_eq]
  exact ite_congr (propext eq_comm) (fun _ => rfl) fun _ => rfl

theorem get?_erase (a : Arena β) (cell c : Nat) :
    (a.erase cell).get? c = if c = cell then none else a.get? c := by
  unfold erase
  split
  · simp only [get?, Std.ExtTreeMap.getElem?_erase, Nat.compare_eq_eq]
    exact ite_congr (propext eq_comm) (fun _ => rfl) fun _ => rfl
  · next h =>
    split
    · next hc => rw [hc]; exact Std.ExtTreeMap.getElem?_eq_none h
    · rfl

theorem get?_modify (a : Arena β) (cell c : Nat) (f : β → β) :
    (a.modify cell f).get? c = if c = cell then (a.get? c).map f else a.get? c := by
  simp only [get?, modify, Std.ExtTreeMap.getElem?_modify, Nat.compare_eq_eq]
  by_cases h : c = cell
  · rw [if_pos h, if_pos h.symm, h]
  · rw [if_neg h, if_neg (Ne.symm h)]

end Arena

@[default_instance]
instance : Slab Arena where
  empty := .empty
  get? := Arena.get?
  cells a := a.cells.keys
  size := Arena.size
  nextCell := Arena.nextCell
  insert := Arena.insert
  modify := Arena.modify
  erase := Arena.erase
  get?_empty cell := by simp [Arena.get?, Arena.empty]
  mem_cells := by simp [Arena.get?]
  nodup_cells _ := Std.ExtTreeMap.nodup_keys
  size_eq _ := Std.ExtTreeMap.length_keys.symm
  get?_nextCell a := by simpa [Arena.get?] using a.nextCell_notMem
  get?_insert := Arena.get?_insert
  get?_modify := Arena.get?_modify
  get?_erase := Arena.get?_erase

end WorkerPool
