import Mathlib.Tactic.Abel
import NodeHealthMonitor.OwnedMemory

/-! Singly linked lists in memory. A cell holds the address of its data and the address of
the next cell; the functions follow the pointers and know nothing else of a list. A walk
takes the number of blocks as its fuel: it runs out only in a cycle. -/

namespace NodeHealthMonitor.LinkedList
open OwnedMemory

/-- Blocks some of which are cells of a list. -/
class ListCell (V : Type) where
  cell : ℕ → Option ℕ → V
  view : V → Option (ℕ × Option ℕ)
  view_cell : ∀ data next, view (cell data next) = some (data, next)

structure Node where
  addr : ℕ
  data : ℕ

variable {V α β : Type} [ListCell V]

def loadCell (a : ℕ) : HeapM V (ℕ × Option ℕ) := do
  let v ← load a
  ofOption (ListCell.view v)

def fold (body : β → ℕ → HeapM V β) : ℕ → Option ℕ → β → HeapM V β
  | _, none, acc => pure acc
  | 0, some _, _ => ofOption none
  | n + 1, some a, acc => do
      let (data, next) ← loadCell a
      let acc ← body acc data
      fold body n next acc

def find (p : ℕ → HeapM V Bool) : ℕ → Option ℕ → HeapM V (Option ℕ)
  | _, none => pure none
  | 0, some _ => ofOption none
  | n + 1, some a => do
      let (data, next) ← loadCell a
      let found ← p data
      if found then pure (some data) else find p n next

def appendWalk (new : ℕ) : ℕ → ℕ → HeapM V Unit
  | 0, _ => ofOption none
  | n + 1, a => do
      let (data, next) ← loadCell a
      match next with
      | none => store a (ListCell.cell data (some new))
      | some b => appendWalk new n b

def append (A : Allocator V) (list : Option ℕ) (data : ℕ) : HeapM V (Option ℕ) := do
  let new ← alloc A (ListCell.cell data none)
  match list with
  | none => pure (some new)
  | some a => do
      let n ← blockCount
      appendWalk new n a
      pure (some a)

/-- The first cell with this data is taken out behind the cell `prev`; only addresses are
compared. -/
def removeWalk (data : ℕ) : ℕ → ℕ → Option ℕ → HeapM V Unit
  | _, _, none => pure ()
  | 0, _, some _ => ofOption none
  | n + 1, prev, some a => do
      let (d, next) ← loadCell a
      if d = data then do
        let (before, _) ← loadCell prev
        store prev (ListCell.cell before next)
        free a
      else removeWalk data n a next

def remove (list : Option ℕ) (data : ℕ) : HeapM V (Option ℕ) :=
  match list with
  | none => pure none
  | some a => do
      let (d, next) ← loadCell a
      if d = data then do
        free a
        pure next
      else do
        let n ← blockCount
        removeWalk data n a next
        pure (some a)

def freeCells : ℕ → Option ℕ → HeapM V Unit
  | _, none => pure ()
  | 0, some _ => ofOption none
  | n + 1, some a => do
      let (_, next) ← loadCell a
      free a
      freeCells n next

/-- The data is freed in one walk, the cells in a second one. -/
def freeFull (freeData : ℕ → HeapM V Unit) (list : Option ℕ) : HeapM V Unit := do
  let n ← blockCount
  fold (fun _ data => freeData data) n list ()
  let n ← blockCount
  freeCells n list

def length (list : Option ℕ) : HeapM V ℕ := do
  let n ← blockCount
  fold (fun count _ => pure (count + 1)) n list 0

def head (nodes : List Node) : Option ℕ := nodes.head?.map Node.addr

def chain : List Node → Cells V
  | [] => 0
  | node :: rest => ⟨node.addr, ListCell.cell node.data (head rest)⟩ ::ₘ chain rest

@[simp] theorem head_nil : head [] = none := rfl

@[simp] theorem head_cons (node : Node) (rest : List Node) : head (node :: rest) = some node.addr :=
  rfl

@[simp] theorem card_chain (nodes : List Node) : (chain nodes : Cells V).card = nodes.length := by
  induction nodes with
  | nil => rfl
  | cons node rest ih => rw [chain, Multiset.card_cons, ih, List.length_cons]

theorem triple_loadCell (rest : Cells V) (a data : ℕ) (next : Option ℕ) :
    Triple (⟨a, ListCell.cell data next⟩ ::ₘ rest) (loadCell a) fun c cells =>
      c = (data, next) ∧ cells = ⟨a, ListCell.cell data next⟩ ::ₘ rest :=
  .load rfl (.ofOption (ListCell.view_cell data next) ⟨rfl, rfl⟩)

theorem loadCell_bind {pre rest : Cells V} {a data : ℕ} {next : Option ℕ}
    {program : ℕ × Option ℕ → HeapM V β} {post : β → Cells V → Prop}
    (hpre : pre = ⟨a, ListCell.cell data next⟩ ::ₘ rest)
    (h : Triple (⟨a, ListCell.cell data next⟩ ::ₘ rest) (program (data, next)) post) :
    Triple pre (loadCell a >>= program) post := by
  refine hpre ▸ (triple_loadCell rest a data next).bind ?_
  rintro _ _ ⟨rfl, rfl⟩
  exact h

section
variable {ι : Type} (nodeOf : ι → Node)

/-- What the body of a loop makes of what is owned besides the cells, item by item. -/
theorem triple_fold {body : β → ℕ → HeapM V β} (inv : List ι → β → Cells V → Prop)
    (step : ∀ item rest acc own, inv (item :: rest) acc own →
      Triple own (body acc (nodeOf item).data) fun acc own => inv rest acc own)
    (items : List ι) (n : ℕ) (h : items.length ≤ n) (acc : β) (own : Cells V)
    (start : inv items acc own) :
    Triple (chain (items.map nodeOf) + own) (fold body n (head (items.map nodeOf)) acc)
      fun acc cells => ∃ own, inv [] acc own ∧ cells = chain (items.map nodeOf) + own := by
  induction items generalizing n acc own with
  | nil =>
    rw [List.map_nil, head_nil, fold]
    exact .pure acc ⟨own, start, rfl⟩
  | cons item rest ih =>
    obtain ⟨k, rfl⟩ : ∃ k, n = k + 1 := ⟨n - 1, by simp only [List.length_cons] at h; omega⟩
    rw [List.map_cons, head_cons, fold, chain, Multiset.cons_add]
    refine loadCell_bind rfl ((step item rest acc own start).call
      (r := ⟨(nodeOf item).addr, ListCell.cell (nodeOf item).data (head (rest.map nodeOf))⟩ ::ₘ
        chain (rest.map nodeOf)) ?_ ?_)
    · rw [Multiset.add_cons, add_comm]
    · intro acc own hinv
      refine (ih k (Nat.le_of_succ_le_succ h) acc own hinv).last
        (r := {⟨(nodeOf item).addr,
          ListCell.cell (nodeOf item).data (head (rest.map nodeOf))⟩}) ?_ ?_
      · rw [← Multiset.singleton_add]
        abel
      · rintro acc _ ⟨own, hend, rfl⟩
        refine ⟨own, hend, ?_⟩
        rw [← Multiset.singleton_add]
        abel

theorem triple_fold_read {body : β → ℕ → HeapM V β} {own : Cells V} (turn : β → ι → β)
    (items : List ι) (step : ∀ item ∈ items, ∀ acc,
      Triple own (body acc (nodeOf item).data) fun next cells => next = turn acc item ∧ cells = own)
    (n : ℕ) (h : items.length ≤ n) (acc : β) :
    Triple (chain (items.map nodeOf) + own) (fold body n (head (items.map nodeOf)) acc)
      fun next cells => next = items.foldl turn acc ∧ cells = chain (items.map nodeOf) + own := by
  refine (triple_fold nodeOf (fun left now cells => (∀ item ∈ left, item ∈ items) ∧
    left.foldl turn now = items.foldl turn acc ∧ cells = own) ?_ items n h acc own
    ⟨fun _ hitem => hitem, rfl, rfl⟩).weaken ?_
  · rintro item rest now _ ⟨hmem, hfold, rfl⟩
    refine (step item (hmem item List.mem_cons_self) now).weaken ?_
    rintro _ _ ⟨rfl, rfl⟩
    exact ⟨fun other hother => hmem other (List.mem_cons_of_mem item hother), hfold, rfl⟩
  · rintro next _ ⟨_, ⟨-, hnext, rfl⟩, rfl⟩
    exact ⟨hnext, rfl⟩

theorem triple_find {p : ℕ → HeapM V Bool} {f : ι → Bool} {own : Cells V} (items : List ι)
    (step : ∀ item ∈ items,
      Triple own (p (nodeOf item).data) fun found cells => found = f item ∧ cells = own)
    (n : ℕ) (h : items.length ≤ n) :
    Triple (chain (items.map nodeOf) + own) (find p n (head (items.map nodeOf))) fun found cells =>
      found = (items.find? f).map (fun item => (nodeOf item).data) ∧
      cells = chain (items.map nodeOf) + own := by
  induction items generalizing n with
  | nil =>
    rw [List.map_nil, head_nil, find]
    exact .pure none ⟨rfl, rfl⟩
  | cons item rest ih =>
    obtain ⟨k, rfl⟩ : ∃ k, n = k + 1 := ⟨n - 1, by simp only [List.length_cons] at h; omega⟩
    rw [List.map_cons, head_cons, find, chain, Multiset.cons_add]
    refine loadCell_bind rfl ((step item List.mem_cons_self).call
      (r := ⟨(nodeOf item).addr, ListCell.cell (nodeOf item).data (head (rest.map nodeOf))⟩ ::ₘ
        chain (rest.map nodeOf)) ?_ ?_)
    · rw [Multiset.add_cons, add_comm]
    · rintro _ _ ⟨rfl, rfl⟩
      cases hf : f item with
      | true =>
        refine .pure _ ⟨?_, by rw [Multiset.add_cons, add_comm]⟩
        rw [List.find?_cons, hf]
        rfl
      | false =>
        have hrest := ih (fun other hother => step other (List.mem_cons_of_mem item hother)) k
          (Nat.le_of_succ_le_succ h)
        refine hrest.last (r := {⟨(nodeOf item).addr,
          ListCell.cell (nodeOf item).data (head (rest.map nodeOf))⟩}) ?_ ?_
        · rw [← Multiset.singleton_add]
          abel
        · rintro _ _ ⟨rfl, rfl⟩
          refine ⟨by rw [List.find?_cons, hf], ?_⟩
          rw [← Multiset.singleton_add]
          abel

end

private theorem triple_appendWalk (new data : ℕ) (node : Node) (rest : List Node) (n : ℕ)
    (h : (node :: rest).length ≤ n) :
    Triple (⟨new, ListCell.cell data none⟩ ::ₘ chain (node :: rest) : Cells V)
      (appendWalk new n node.addr) fun _ cells =>
        cells = chain (node :: rest ++ [⟨new, data⟩]) := by
  induction rest generalizing node n with
  | nil =>
    obtain ⟨k, rfl⟩ : ∃ k, n = k + 1 := ⟨n - 1, by simp only [List.length_singleton] at h; omega⟩
    rw [appendWalk]
    refine loadCell_bind (Multiset.cons_swap _ _ _) ?_
    refine (triple_store _ _ _ _).weaken ?_
    rintro _ _ rfl
    rfl
  | cons second rest ih =>
    obtain ⟨k, rfl⟩ : ∃ k, n = k + 1 := ⟨n - 1, by simp only [List.length_cons] at h; omega⟩
    rw [appendWalk]
    refine loadCell_bind (Multiset.cons_swap _ _ _) ?_
    refine (ih second k (Nat.le_of_succ_le_succ h)).last
      (r := {⟨node.addr, ListCell.cell node.data (some second.addr)⟩}) ?_ ?_
    · rw [head_cons, ← Multiset.singleton_add]
      abel
    · rintro _ _ rfl
      rw [add_comm, Multiset.singleton_add]
      rfl

theorem triple_append (A : Allocator V) (nodes : List Node) (data : ℕ) :
    Triple (chain nodes : Cells V) (append A (head nodes) data) fun list cells =>
      ∃ new, list = head (nodes ++ [⟨new, data⟩]) ∧ cells = chain (nodes ++ [⟨new, data⟩]) := by
  refine .alloc fun new => ?_
  cases nodes with
  | nil => exact .pure _ ⟨new, rfl, rfl⟩
  | cons node rest =>
    refine (triple_blockCount _).bind ?_
    rintro n _ ⟨hn, rfl⟩
    rw [Multiset.card_cons, card_chain] at hn
    refine (triple_appendWalk new data node rest n (Nat.le_of_succ_le hn)).bind ?_
    rintro _ _ rfl
    exact .pure _ ⟨new, rfl, rfl⟩

private theorem triple_removeWalk (data : ℕ) (prev : Node) (nodes : List Node) (n : ℕ)
    (h : nodes.length ≤ n) :
    Triple (chain (prev :: nodes) : Cells V) (removeWalk data n prev.addr (head nodes))
      fun _ cells => cells = chain (prev :: nodes.eraseP fun node => node.data = data) := by
  induction nodes generalizing prev n with
  | nil =>
    rw [head_nil, removeWalk]
    exact .pure _ rfl
  | cons node rest ih =>
    obtain ⟨k, rfl⟩ : ∃ k, n = k + 1 := ⟨n - 1, by simp only [List.length_cons] at h; omega⟩
    rw [head_cons, removeWalk]
    refine loadCell_bind (Multiset.cons_swap _ _ _) ?_
    dsimp only
    by_cases hdata : node.data = data
    · rw [if_pos hdata, List.eraseP_cons_of_pos (by simpa using hdata)]
      refine loadCell_bind (Multiset.cons_swap _ _ _) ?_
      refine .store rfl ?_
      rw [Multiset.cons_swap]
      refine (triple_free _ _ _).weaken ?_
      rintro _ _ rfl
      rfl
    · rw [if_neg hdata, List.eraseP_cons_of_neg (by simpa using hdata)]
      refine (ih node k (Nat.le_of_succ_le_succ h)).last
        (r := {⟨prev.addr, ListCell.cell prev.data (some node.addr)⟩}) ?_ ?_
      · rw [add_comm, Multiset.singleton_add]
        exact Multiset.cons_swap _ _ _
      · rintro _ _ rfl
        rw [add_comm, Multiset.singleton_add]
        rfl

theorem triple_remove (nodes : List Node) (data : ℕ) :
    Triple (chain nodes : Cells V) (remove (head nodes) data) fun list cells =>
      list = head (nodes.eraseP fun node => node.data = data) ∧
      cells = chain (nodes.eraseP fun node => node.data = data) := by
  cases nodes with
  | nil => exact .pure _ ⟨rfl, rfl⟩
  | cons node rest =>
    refine loadCell_bind rfl ?_
    dsimp only
    by_cases hdata : node.data = data
    · rw [if_pos hdata, List.eraseP_cons_of_pos (by simpa using hdata)]
      exact .free rfl (.pure _ ⟨rfl, rfl⟩)
    · rw [if_neg hdata, List.eraseP_cons_of_neg (by simpa using hdata)]
      refine (triple_blockCount _).bind ?_
      rintro n _ ⟨hn, rfl⟩
      rw [Multiset.card_cons, card_chain] at hn
      refine (triple_removeWalk data node rest n (Nat.le_of_succ_le hn)).bind ?_
      rintro _ _ rfl
      exact .pure _ ⟨rfl, rfl⟩

theorem triple_freeCells (nodes : List Node) (n : ℕ) (h : nodes.length ≤ n) :
    Triple (chain nodes : Cells V) (freeCells n (head nodes)) fun _ cells => cells = 0 := by
  induction nodes generalizing n with
  | nil =>
    rw [head_nil, freeCells]
    exact .pure _ rfl
  | cons node rest ih =>
    obtain ⟨k, rfl⟩ : ∃ k, n = k + 1 := ⟨n - 1, by simp only [List.length_cons] at h; omega⟩
    rw [head_cons, freeCells]
    exact loadCell_bind rfl (.free rfl (ih k (Nat.le_of_succ_le_succ h)))

theorem triple_freeFull {ι : Type} (nodeOf : ι → Node) {freeData : ℕ → HeapM V Unit}
    (object : ι → Cells V) (items : List ι) (hfree : ∀ item ∈ items,
      Triple (object item) (freeData (nodeOf item).data) fun _ cells => cells = 0) :
    Triple (chain (items.map nodeOf) + (items.map object).sum)
      (freeFull freeData (head (items.map nodeOf))) fun _ cells => cells = 0 := by
  refine (triple_blockCount _).bind ?_
  rintro n _ ⟨hn, rfl⟩
  rw [Multiset.card_add, card_chain, List.length_map] at hn
  refine (triple_fold nodeOf (fun left _ own => (∀ item ∈ left, item ∈ items) ∧
    own = (left.map object).sum) ?_ items n (by omega) () _ ⟨fun _ h => h, rfl⟩).bind ?_
  · rintro item rest _ _ ⟨hmem, rfl⟩
    refine (hfree item (hmem item List.mem_cons_self)).last
      (r := (rest.map object).sum) (by rw [List.map_cons, List.sum_cons]) ?_
    rintro _ _ rfl
    exact ⟨fun other h => hmem other (List.mem_cons_of_mem item h), zero_add _⟩
  · rintro _ _ ⟨_, ⟨-, rfl⟩, rfl⟩
    refine (triple_blockCount _).bind ?_
    rintro n _ ⟨hn, rfl⟩
    rw [Multiset.card_add, card_chain, List.length_map] at hn
    rw [List.map_nil, List.sum_nil, add_zero]
    exact triple_freeCells _ n (by rw [List.length_map]; omega)

theorem triple_length (nodes : List Node) :
    Triple (chain nodes : Cells V) (length (head nodes)) fun count cells =>
      count = nodes.length ∧ cells = chain nodes := by
  refine (triple_blockCount _).bind ?_
  rintro n _ ⟨hn, rfl⟩
  rw [card_chain] at hn
  have hread : Triple (chain (nodes.map id) + 0 : Cells V)
      (fold (fun count _ => Pure.pure (count + 1)) n (head (nodes.map id)) 0) fun next cells =>
        next = nodes.foldl (fun count _ => count + 1) 0 ∧ cells = chain (nodes.map id) + 0 :=
    triple_fold_read id (fun count _ => count + 1) nodes
      (fun _ _ count => .pure (count + 1) ⟨rfl, rfl⟩) n hn 0
  rw [add_zero, List.map_id] at hread
  refine hread.weaken ?_
  rintro _ _ ⟨rfl, rfl⟩
  refine ⟨?_, rfl⟩
  simp

end NodeHealthMonitor.LinkedList
