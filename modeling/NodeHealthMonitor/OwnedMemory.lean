import Mathlib.Algebra.Order.Group.Multiset
import Mathlib.Data.List.AList

/-! Memory of allocated blocks, and a logic for the programs that work on it. A program has
no result where it uses an address that is not allocated. A triple names the blocks that a
program owns and what it makes of them; every other block stays as it is, so that the
triples of the parts of a program can be put together. Owning is exact: a program that is
left with nothing has freed whatever it had. -/

namespace NodeHealthMonitor.OwnedMemory

structure Memory (V : Type) where
  blocks : AList fun _ : ℕ => V
  allocations : ℕ

/-- Any way to choose an address that is not in use; freed ones may come back. -/
structure Allocator (V : Type) where
  choose : Memory V → ℕ
  fresh : ∀ m, choose m ∉ m.blocks

abbrev HeapM (V : Type) := StateT (Memory V) Option

abbrev Cells (V : Type) := Multiset ((_ : ℕ) × V)

variable {V α β : Type}

namespace Memory

def cells (m : Memory V) : Cells V := m.blocks.entries

def empty : Memory V := ⟨∅, 0⟩

theorem cells_erase {m : Memory V} {a : ℕ} {v : V} {rest : Cells V}
    (h : m.cells = ⟨a, v⟩ ::ₘ rest) :
    ((m.blocks.erase a).entries : Cells V) = rest := by
  obtain ⟨l, rfl⟩ := Quot.exists_rep rest
  have hperm : m.blocks.entries.Perm (⟨a, v⟩ :: l) := Multiset.coe_eq_coe.mp h
  refine Multiset.coe_eq_coe.mpr ?_
  have hrest := hperm.kerase (a := a) m.blocks.nodupKeys
  have hl : List.kerase a (⟨a, v⟩ :: l : List ((_ : ℕ) × V)) = l := List.kerase_cons_eq rfl
  rwa [hl] at hrest

theorem lookup_of_cells {m : Memory V} {a : ℕ} {v : V} {rest : Cells V}
    (h : m.cells = ⟨a, v⟩ ::ₘ rest) : m.blocks.lookup a = some v := by
  have hmem : (⟨a, v⟩ : (_ : ℕ) × V) ∈ m.cells := h ▸ Multiset.mem_cons_self _ _
  exact AList.mem_lookup_iff.mpr (Multiset.mem_coe.mp hmem)

theorem cells_nodup (m : Memory V) : (m.cells.map Sigma.fst).Nodup := m.blocks.nodupKeys

end Memory

theorem le_foldr_add {a : ℕ} {addresses : List ℕ} (h : a ∈ addresses) :
    a ≤ addresses.foldr (fun b sum => b + sum) 0 := by
  induction addresses with
  | nil => cases h
  | cons b rest ih =>
    rw [List.foldr_cons]
    rcases List.mem_cons.mp h with rfl | hrest
    · omega
    · have := ih hrest
      omega

/-- The addresses in use add up to less than the next one. -/
def Allocator.next : Allocator V where
  choose m := m.blocks.keys.foldr (fun b sum => b + sum) 0 + 1
  fresh m h := by
    have hle := le_foldr_add (AList.mem_keys.mp h)
    omega

def alloc (A : Allocator V) (v : V) : HeapM V ℕ := fun m =>
  some (A.choose m, ⟨m.blocks.insert (A.choose m) v, m.allocations + 1⟩)

def load (a : ℕ) : HeapM V V := fun m => (m.blocks.lookup a).map fun v => (v, m)

def store (a : ℕ) (v : V) : HeapM V Unit := fun m =>
  (m.blocks.lookup a).map fun _ => ((), { m with blocks := m.blocks.insert a v })

def free (a : ℕ) : HeapM V Unit := fun m =>
  (m.blocks.lookup a).map fun _ => ((), { m with blocks := m.blocks.erase a })

def ofOption (x : Option α) : HeapM V α := fun m => x.map fun a => (a, m)

/-- How many blocks there are: no list that is not a cycle is longer. -/
def blockCount : HeapM V ℕ := fun m => some (m.blocks.entries.length, m)

/-- From the blocks `pre`, and whatever else there is, the program gets to a result, with
the blocks it then owns in the place of `pre`. -/
def Triple (pre : Cells V) (program : HeapM V α) (post : α → Cells V → Prop) : Prop :=
  ∀ (frame : Cells V) (m : Memory V), m.cells = pre + frame →
    ∃ a next own, program m = some (a, next) ∧ next.cells = own + frame ∧ post a own

namespace Triple

variable {pre own r : Cells V} {program : HeapM V α} {post : α → Cells V → Prop}

theorem run (h : Triple pre program post) {m : Memory V} (hm : m.cells = pre) :
    ∃ a next, program m = some (a, next) ∧ post a next.cells := by
  obtain ⟨a, next, own, hstep, hnext, hpost⟩ := h 0 m (by rw [hm, add_zero])
  rw [add_zero] at hnext
  exact ⟨a, next, hstep, hnext ▸ hpost⟩

theorem weaken {post' : α → Cells V → Prop} (h : Triple pre program post)
    (hpost : ∀ a own, post a own → post' a own) : Triple pre program post' := by
  intro frame m hm
  obtain ⟨a, next, own, hstep, hnext, ha⟩ := h frame m hm
  exact ⟨a, next, own, hstep, hnext, hpost a own ha⟩

theorem frame (h : Triple pre program post) (rest : Cells V) :
    Triple (pre + rest) program fun a cells => ∃ own, post a own ∧ cells = own + rest := by
  intro frame m hm
  obtain ⟨a, next, own, hstep, hnext, hpost⟩ := h (rest + frame) m (by rw [hm, add_assoc])
  exact ⟨a, next, own + rest, hstep, by rw [hnext, add_assoc], own, hpost, rfl⟩

theorem bind {next : α → HeapM V β} {mid : α → Cells V → Prop} {post : β → Cells V → Prop}
    (h : Triple pre program mid) (hnext : ∀ a own, mid a own → Triple own (next a) post) :
    Triple pre (program >>= next) post := by
  intro frame m hm
  obtain ⟨a, between, own, hstep, hbetween, hmid⟩ := h frame m hm
  obtain ⟨b, last, own', hlast, hcells, hpost⟩ := hnext a own hmid frame between hbetween
  refine ⟨b, last, own', ?_, hcells, hpost⟩
  change (program m).bind (fun result => next result.1 result.2) = some (b, last)
  rw [hstep]
  exact hlast

theorem call {next : α → HeapM V β} {mid : α → Cells V → Prop} {post : β → Cells V → Prop}
    (h : Triple own program mid) (hpre : pre = own + r)
    (hnext : ∀ a part, mid a part → Triple (part + r) (next a) post) :
    Triple pre (program >>= next) post := by
  refine (hpre ▸ h.frame r).bind ?_
  rintro a _ ⟨part, hmid, rfl⟩
  exact hnext a part hmid

theorem last {post' : α → Cells V → Prop} (h : Triple own program post) (hpre : pre = own + r)
    (hpost : ∀ a part, post a part → post' a (part + r)) : Triple pre program post' := by
  refine (hpre ▸ h.frame r).weaken ?_
  rintro a _ ⟨part, ha, rfl⟩
  exact hpost a part ha

theorem pure (a : α) (h : post a pre) : Triple pre (Pure.pure a) post :=
  fun _ m hm => ⟨a, m, pre, rfl, hm, h⟩

theorem ofOption {x : Option α} {a : α} (hx : x = some a) (h : post a pre) :
    Triple pre (OwnedMemory.ofOption x) post :=
  fun _ m hm => ⟨a, m, pre, by rw [OwnedMemory.ofOption, hx, Option.map_some], hm, h⟩

theorem of_nodup (h : (pre.map Sigma.fst).Nodup → Triple pre program post) :
    Triple pre program post := by
  intro frame m hm
  have hnodup := m.cells_nodup
  rw [hm, Multiset.map_add] at hnodup
  exact h (Multiset.nodup_of_le (Multiset.le_add_right _ _) hnodup) frame m hm

end Triple

section
variable (rest : Cells V) (a : ℕ) (v w : V)

theorem triple_alloc (A : Allocator V) :
    Triple rest (alloc A v) fun a cells => cells = ⟨a, v⟩ ::ₘ rest := by
  intro frame m hm
  refine ⟨A.choose m, _, ⟨A.choose m, v⟩ ::ₘ rest, rfl, ?_, rfl⟩
  rw [Multiset.cons_add, ← hm]
  simp only [Memory.cells, AList.entries_insert_of_notMem (A.fresh m), Multiset.cons_coe]

theorem triple_load :
    Triple (⟨a, v⟩ ::ₘ rest) (load a) fun u cells => u = v ∧ cells = ⟨a, v⟩ ::ₘ rest := by
  intro frame m hm
  rw [Multiset.cons_add] at hm
  refine ⟨v, m, ⟨a, v⟩ ::ₘ rest, ?_, by rw [hm, Multiset.cons_add], rfl, rfl⟩
  rw [load, Memory.lookup_of_cells hm, Option.map_some]

theorem triple_store :
    Triple (⟨a, v⟩ ::ₘ rest) (store a w) fun _ cells => cells = ⟨a, w⟩ ::ₘ rest := by
  intro frame m hm
  rw [Multiset.cons_add] at hm
  refine ⟨(), _, ⟨a, w⟩ ::ₘ rest, by rw [store, Memory.lookup_of_cells hm, Option.map_some],
    ?_, rfl⟩
  have herase : (m.blocks.erase a).entries = m.blocks.entries.kerase a := rfl
  rw [Multiset.cons_add, ← Memory.cells_erase hm, herase]
  simp only [Memory.cells, AList.entries_insert, Multiset.cons_coe]

theorem triple_free :
    Triple (⟨a, v⟩ ::ₘ rest) (free a) fun _ cells => cells = rest := by
  intro frame m hm
  rw [Multiset.cons_add] at hm
  refine ⟨(), _, rest, by rw [free, Memory.lookup_of_cells hm, Option.map_some], ?_, rfl⟩
  exact Memory.cells_erase hm

theorem triple_blockCount :
    Triple rest blockCount fun n cells => rest.card ≤ n ∧ cells = rest := by
  intro frame m hm
  refine ⟨m.blocks.entries.length, m, rest, rfl, hm, ?_, rfl⟩
  have hcard : m.cells.card = m.blocks.entries.length := Multiset.coe_card _
  rw [← hcard, hm, Multiset.card_add]
  exact Nat.le_add_right _ _

end

/-! A program that begins with a step on the memory goes on with what the step leaves. -/

namespace Triple

variable {pre rest : Cells V} {post : β → Cells V → Prop} {a : ℕ} {v w : V}

theorem alloc {A : Allocator V} {next : ℕ → HeapM V β}
    (h : ∀ a, Triple (⟨a, v⟩ ::ₘ pre) (next a) post) :
    Triple pre (OwnedMemory.alloc A v >>= next) post :=
  (triple_alloc pre v A).bind fun a _ hcells => hcells ▸ h a

theorem load {next : V → HeapM V β} (hpre : pre = ⟨a, v⟩ ::ₘ rest)
    (h : Triple (⟨a, v⟩ ::ₘ rest) (next v) post) :
    Triple pre (OwnedMemory.load a >>= next) post := by
  refine hpre ▸ (triple_load rest a v).bind ?_
  rintro _ _ ⟨rfl, rfl⟩
  exact h

theorem store {next : Unit → HeapM V β} (hpre : pre = ⟨a, v⟩ ::ₘ rest)
    (h : Triple (⟨a, w⟩ ::ₘ rest) (next ()) post) :
    Triple pre (OwnedMemory.store a w >>= next) post :=
  hpre ▸ (triple_store rest a v w).bind fun _ _ hcells => hcells ▸ h

theorem free {next : Unit → HeapM V β} (hpre : pre = ⟨a, v⟩ ::ₘ rest)
    (h : Triple rest (next ()) post) : Triple pre (OwnedMemory.free a >>= next) post :=
  hpre ▸ (triple_free rest a v).bind fun _ _ hcells => hcells ▸ h

theorem ofOption_bind {x : Option α} {y : α} {next : α → HeapM V β} (hx : x = some y)
    (h : Triple pre (next y) post) : Triple pre (OwnedMemory.ofOption x >>= next) post := by
  have hread : Triple pre (OwnedMemory.ofOption x) fun z cells => z = y ∧ cells = pre :=
    ofOption hx ⟨rfl, rfl⟩
  refine hread.bind ?_
  rintro _ _ ⟨rfl, rfl⟩
  exact h

end Triple

/-- A loop over items, by what it keeps of those that are left. -/
theorem triple_foldlM {ι : Type} {body : β → ι → HeapM V β} (inv : List ι → β → Cells V → Prop)
    (step : ∀ item rest acc own, inv (item :: rest) acc own →
      Triple own (body acc item) fun acc own => inv rest acc own)
    (items : List ι) (acc : β) (own : Cells V) (start : inv items acc own) :
    Triple own (items.foldlM body acc) fun acc own => inv [] acc own := by
  induction items generalizing acc own with
  | nil => exact .pure acc start
  | cons item rest ih =>
    rw [List.foldlM_cons]
    exact (step item rest acc own start).bind fun acc own hinv => ih acc own hinv

theorem triple_foldlM_read {ι : Type} {body : β → ι → HeapM V β} {turn : β → ι → β}
    {own : Cells V} (items : List ι) (step : ∀ item ∈ items, ∀ acc,
      Triple own (body acc item) fun next cells => next = turn acc item ∧ cells = own) (acc : β) :
    Triple own (items.foldlM body acc) fun next cells =>
      next = items.foldl turn acc ∧ cells = own := by
  refine (triple_foldlM (fun left now cells => (∀ item ∈ left, item ∈ items) ∧
    left.foldl turn now = items.foldl turn acc ∧ cells = own) ?_ items acc own
    ⟨fun _ hitem => hitem, rfl, rfl⟩).weaken fun _ _ hend => hend.2
  rintro item rest now _ ⟨hmem, hfold, rfl⟩
  refine (step item (hmem item List.mem_cons_self) now).weaken ?_
  rintro _ _ ⟨rfl, rfl⟩
  exact ⟨fun other hother => hmem other (List.mem_cons_of_mem item hother), hfold, rfl⟩

end NodeHealthMonitor.OwnedMemory
