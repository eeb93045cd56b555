import Mathlib.Data.List.Basic
import Mathlib.Data.Nat.ModEq
import Mathlib.Logic.Function.Basic

/-!
# RocToolkit.Core.SpscRingBuffer

`core::SpscRingBuffer` over `core::SpscByteBuffer`: one thread in `push_back` and one in `pop_front`. Every atomic
operation, and every access to a chunk, is one step. The positions are free-running 32-bit counters.
-/

namespace Roc.Core.SpscRingBuffer

open List Nat

structure Capacity where
  nChunks : Nat
  fits : nChunks + 1 < 18446744073709551616

def Capacity.chunkCount (cap : Capacity) : Nat := cap.nChunks + 1

/-- Arithmetic of `uint32_t`. -/
def wrap (n : Nat) : Nat := n % 4294967296

/-- `push_back`: `begin_write` loads both positions, then the element is stored, then `end_write`. -/
inductive Writer (α : Type) where
  | idle
  | loadWritePos (element : α)
  | loadReadPos (element : α) (wrPos : Nat)
  | store (element : α) (chunk : Nat)
  | endWrite (element : α) (chunk : Nat)
deriving DecidableEq, Repr

/-- `pop_front`. -/
inductive Reader (α : Type) where
  | idle
  | loadReadPos
  | loadWritePos (rdPos : Nat)
  | load (chunk : Nat)
  | endRead (chunk : Nat) (element : Option α)
deriving DecidableEq, Repr

structure State (α : Type) where
  readPos : Nat := 0
  writePos : Nat := 1
  chunks : Nat → Option α := fun _ => none
  writer : Writer α := .idle
  reader : Reader α := .idle

/-- What is seen of a run; an element belongs to the buffer from `end_write` to `end_read`. -/
inductive Event (α : Type) where
  | writeNull
  | wrote (chunk : Nat) (element : α)
  | readNull
  | read (element : Option α)
deriving DecidableEq, Repr

inductive Action (α : Type) where
  | pushBack (element : α)
  | write
  | popFront
  | read
deriving DecidableEq, Repr

variable {α : Type}

namespace State

def writeStep (cap : Capacity) (s : State α) : State α × List (Event α) :=
  match s.writer with
  | .idle => (s, [])
  | .loadWritePos element => ({ s with writer := .loadReadPos element s.writePos }, [])
  | .loadReadPos element wrPos =>
    if wrap (wrPos + 4294967296 - s.readPos) ≥ cap.chunkCount then ({ s with writer := .idle }, [.writeNull])
    else ({ s with writer := .store element (wrPos % cap.chunkCount) }, [])
  | .store element chunk =>
    ({ s with chunks := Function.update s.chunks chunk (some element), writer := .endWrite element chunk }, [])
  | .endWrite element chunk =>
    ({ s with writePos := wrap (s.writePos + 1), writer := .idle }, [.wrote chunk element])

def readStep (cap : Capacity) (s : State α) : State α × List (Event α) :=
  match s.reader with
  | .idle => (s, [])
  | .loadReadPos => ({ s with reader := .loadWritePos s.readPos }, [])
  | .loadWritePos rdPos =>
    if wrap (rdPos + 1) = s.writePos then ({ s with reader := .idle }, [.readNull])
    else ({ s with reader := .load (wrap (rdPos + 1) % cap.chunkCount) }, [])
  | .load chunk => ({ s with reader := .endRead chunk (s.chunks chunk) }, [])
  | .endRead _ element => ({ s with readPos := wrap (s.readPos + 1), reader := .idle }, [.read element])

def step (cap : Capacity) (s : State α) : Action α → State α × List (Event α)
  | .pushBack element =>
    match s.writer with
    | .idle => ({ s with writer := .loadWritePos element }, [])
    | _ => (s, [])
  | .write => s.writeStep cap
  | .popFront =>
    match s.reader with
    | .idle => ({ s with reader := .loadReadPos }, [])
    | _ => (s, [])
  | .read => s.readStep cap

end State

/-- A run of the two threads with all that was seen. -/
inductive Run (cap : Capacity) : State α → List (Event α) → Prop where
  | start : Run cap {} []
  | step {s : State α} {evs : List (Event α)} (h : Run cap s evs) (a : Action α) :
      Run cap (s.step cap a).1 (evs ++ (s.step cap a).2)

def Event.wrote? : Event α → Option (Nat × α)
  | .wrote chunk element => some (chunk, element)
  | _ => none

def Event.read? : Event α → Option (Option α)
  | .read element => some element
  | _ => none

def writes (evs : List (Event α)) : List (Nat × α) := evs.filterMap Event.wrote?

def reads (evs : List (Event α)) : List (Option α) := evs.filterMap Event.read?

def unread (evs : List (Event α)) : List (Nat × α) := (writes evs).drop (reads evs).length

/-- The chunk that `begin_write` returned and `end_write` did not give back yet. -/
def Writer.chunk? : Writer α → Option Nat
  | .store _ chunk => some chunk
  | .endWrite _ chunk => some chunk
  | _ => none

/-- A bounded queue, after a run with the events `evs`. -/
structure BoundedFifo (cap : Capacity) (s : State α) (evs : List (Event α)) : Prop where
  /-- elements are read once each, in the order written -/
  values : reads evs <+: (writes evs).map fun x => some x.2
  /-- `begin_write` fails exactly if the buffer is full -/
  full : ∀ element wrPos, s.writer = .loadReadPos element wrPos →
    (.writeNull ∈ (s.step cap .write).2 ↔ (unread evs).length = cap.nChunks)
  /-- `begin_read` fails exactly if it is empty -/
  empty : ∀ rdPos, s.reader = .loadWritePos rdPos → (.readNull ∈ (s.step cap .read).2 ↔ unread evs = [])
  /-- the chunk that is written holds no element that may still be read -/
  exclusive : ∀ k ∈ s.writer.chunk?, ∀ x ∈ unread evs, x.1 ≠ k

/-! ## Positions -/

def slot (cap : Capacity) (pos : Nat) : Nat := wrap pos % cap.chunkCount

def Aligned (cap : Capacity) : Prop := cap.chunkCount < 4294967296 ∧
    (4294967296 % cap.chunkCount = 0 ∨ 4294967296 % cap.chunkCount = cap.chunkCount - 1)

instance (cap : Capacity) : Decidable (Aligned cap) := inferInstanceAs (Decidable (_ ∧ _))

theorem mod_ne_of_lt {a b c : Nat} (hlt : a < b) (hb : b < a + c) : a % c ≠ b % c := by
  intro h
  have hd : c ∣ b - a := (modEq_iff_dvd' hlt.le).mp h
  have := le_of_dvd (by omega) hd
  omega

variable {cap : Capacity} {R : Nat} {evs : List (Event α)}

theorem slot_ne (hcap : Aligned cap) {p q : Nat} (hlt : p < q) (hq : q + 2 ≤ p + cap.chunkCount) :
    slot cap p ≠ slot cap q := by
  obtain ⟨hc, hmod⟩ := hcap
  obtain ⟨d, rfl⟩ := Nat.exists_eq_add_of_lt hlt
  unfold slot wrap
  intro heq
  by_cases hwrap : p % 4294967296 + (d + 1) < 4294967296
  · have hsum : (p + d + 1) % 4294967296 = p % 4294967296 + (d + 1) := by omega
    exact mod_ne_of_lt (by omega) (by omega) (heq.trans (congrArg (· % cap.chunkCount) hsum))
  · -- the counter starts again at zero, and the chunks differ by the rest of its range
    have hsum : p % 4294967296 + (d + 1) = (p + d + 1) % 4294967296 + 4294967296 := by omega
    have hstep : p % 4294967296 + (d + 1) ≡ (p + d + 1) % 4294967296 + (d + 1) [MOD cap.chunkCount] :=
      Nat.ModEq.add_right _ heq
    rw [hsum] at hstep
    have hrest : 4294967296 % cap.chunkCount = (d + 1) % cap.chunkCount := Nat.ModEq.add_left_cancel' _ hstep
    have hsmall : (d + 1) % cap.chunkCount = d + 1 := Nat.mod_eq_of_lt (by omega)
    omega

variable {W : Nat} {s : State α}

theorem wrap_sub (hR : R ≤ W) (hW : W < R + 4294967296) : wrap (wrap W + 4294967296 - wrap R) = W - R := by
  unfold wrap
  omega

theorem wrap_succ (n : Nat) : wrap (wrap n + 1) = wrap (n + 1) := by
  unfold wrap
  omega

theorem wrap_eq_iff (hR : R ≤ W) (hW : W < R + 4294967296) : wrap (R + 1) = wrap (W + 1) ↔ W = R := by
  unfold wrap
  omega

/-! ## Events -/

theorem writes_append (evs new : List (Event α)) : writes (evs ++ new) = writes evs ++ writes new := filterMap_append

theorem reads_append (evs new : List (Event α)) : reads (evs ++ new) = reads evs ++ reads new := filterMap_append

/-! ## The invariant -/

/-- What the writer knows: `W` elements were written and `R` read. -/
def WriterKnows (cap : Capacity) (chunks : Nat → Option α) (W R : Nat) : Writer α → Prop
  | .idle => True
  | .loadWritePos _ => True
  | .loadReadPos _ wrPos => wrPos = wrap (W + 1)
  | .store _ chunk => chunk = slot cap (W + 1) ∧ W < R + cap.nChunks
  | .endWrite element chunk => chunk = slot cap (W + 1) ∧ W < R + cap.nChunks ∧ chunks chunk = some element

/-- What the reader knows; `next` is the first element in the buffer. -/
def ReaderKnows (cap : Capacity) (R : Nat) (next : Option (Nat × α)) : Reader α → Prop
  | .idle => True
  | .loadReadPos => True
  | .loadWritePos rdPos => rdPos = wrap R
  | .load chunk => chunk = slot cap (R + 1) ∧ ∃ x, next = some x
  | .endRead _ element => ∃ x, next = some x ∧ element = some x.2

theorem WriterKnows.mono {chunks : Nat → Option α} {R' : Nat} {w : Writer α}
    (h : WriterKnows cap chunks W R w) (hR : R ≤ R') : WriterKnows cap chunks W R' w := by
  cases w with
  | idle => trivial
  | loadWritePos element => trivial
  | loadReadPos element wrPos => exact h
  | store element chunk => exact ⟨h.1, Nat.lt_of_lt_of_le h.2 (Nat.add_le_add_right hR _)⟩
  | endWrite element chunk => exact ⟨h.1, Nat.lt_of_lt_of_le h.2.1 (Nat.add_le_add_right hR _), h.2.2⟩

theorem ReaderKnows.mono {next next' : Option (Nat × α)} {r : Reader α} (h : ReaderKnows cap R next r)
    (hnext : ∀ x, next = some x → next' = some x) : ReaderKnows cap R next' r := by
  cases r with
  | idle => trivial
  | loadReadPos => trivial
  | loadWritePos rdPos => exact h
  | load chunk => exact ⟨h.1, h.2.imp hnext⟩
  | endRead chunk element => exact h.imp fun x hx => ⟨hnext x hx.1, hx.2⟩

/-- After the elements `ws` were written and `rs` read. -/
structure Inv (cap : Capacity) (s : State α) (ws : List (Nat × α)) (rs : List (Option α)) : Prop where
  writePos : s.writePos = wrap (ws.length + 1)
  readPos : s.readPos = wrap rs.length
  le : rs.length ≤ ws.length
  bound : ws.length ≤ rs.length + cap.nChunks
  values : rs = (ws.take rs.length).map fun x => some x.2
  stored : ∀ i x, rs.length ≤ i → ws[i]? = some x → x.1 = slot cap (i + 1) ∧ s.chunks x.1 = some x.2
  writer : WriterKnows cap s.chunks ws.length rs.length s.writer
  reader : ReaderKnows cap rs.length ws[rs.length]? s.reader

theorem inv_start (cap : Capacity) : Inv cap ({} : State α) [] [] where
  writePos := rfl
  readPos := rfl
  le := le_refl 0
  bound := zero_le _
  values := rfl
  stored i x _ h := by cases h
  writer := trivial
  reader := trivial

section
variable {cap : Capacity} {s : State α} {ws : List (Nat × α)} {rs : List (Option α)} {element : α} {chunk : Nat}

section
variable (h : Inv cap s ws rs)
include h

section
variable (hcap : Aligned cap)
include hcap

theorem Inv.wrap_sub_eq : wrap (wrap (ws.length + 1) + 4294967296 - s.readPos) = ws.length + 1 - rs.length := by
  have hc := hcap.1
  have hle := h.le
  have hbound := h.bound
  unfold Capacity.chunkCount at hc
  rw [h.readPos]
  exact wrap_sub (by omega) (by omega)

theorem Inv.wrap_eq : wrap (wrap rs.length + 1) = s.writePos ↔ ws.length = rs.length := by
  have hc := hcap.1
  have hbound := h.bound
  unfold Capacity.chunkCount at hc
  rw [h.writePos, wrap_succ]
  exact wrap_eq_iff h.le (by omega)

theorem Inv.slot_free (hroom : ws.length < rs.length + cap.nChunks)
    {i : Nat} {x : Nat × α} (hi : rs.length ≤ i) (hx : ws[i]? = some x) : x.1 ≠ slot cap (ws.length + 1) := by
  obtain ⟨hlt, -⟩ := List.getElem?_eq_some_iff.mp hx
  rw [(h.stored i x hi hx).1]
  exact slot_ne hcap (by omega) (by unfold Capacity.chunkCount; omega)

theorem Inv.store (hw : s.writer = .store element chunk) :
    Inv cap { s with chunks := Function.update s.chunks chunk (some element), writer := .endWrite element chunk } ws rs := by
  have hknows := h.writer
  rw [hw] at hknows
  obtain ⟨rfl, hroom⟩ := hknows
  exact { h with
    stored := fun i x hi hx => by
      obtain ⟨hslot, hchunk⟩ := h.stored i x hi hx
      exact ⟨hslot, (Function.update_of_ne (h.slot_free hcap hroom hi hx) _ _).trans hchunk⟩
    writer := ⟨rfl, hroom, Function.update_self ..⟩
    reader := h.reader }

end

theorem Inv.endWrite (hw : s.writer = .endWrite element chunk) :
    Inv cap { s with writePos := wrap (s.writePos + 1), writer := .idle } (ws ++ [(chunk, element)]) rs := by
  have hknows := h.writer
  rw [hw] at hknows
  obtain ⟨rfl, hroom, hchunk⟩ := hknows
  have hlen : (ws ++ [(slot cap (ws.length + 1), element)]).length = ws.length + 1 := length_append
  have hkeep : ∀ {i}, i < ws.length → (ws ++ [(slot cap (ws.length + 1), element)])[i]? = ws[i]? :=
    fun hi => List.getElem?_append_left hi
  exact {
    writePos := by rw [hlen, h.writePos, wrap_succ]
    readPos := h.readPos
    le := by rw [hlen]; exact Nat.le_succ_of_le h.le
    bound := by rw [hlen]; exact hroom
    values := by rw [take_append_of_le_length h.le]; exact h.values
    stored := fun i x hi hx => by
      obtain ⟨hlt, -⟩ := List.getElem?_eq_some_iff.mp hx
      rw [hlen] at hlt
      rcases Nat.lt_succ_iff_lt_or_eq.mp hlt with hlt | rfl
      · exact h.stored i x hi (hkeep hlt ▸ hx)
      · rw [List.getElem?_concat_length] at hx
        cases hx
        exact ⟨rfl, hchunk⟩
    writer := trivial
    reader := h.reader.mono fun x hx => (hkeep (List.getElem?_eq_some_iff.mp hx).1).trans hx }

theorem Inv.append_nil : Inv cap s (ws ++ []) (rs ++ []) := by
  rwa [List.append_nil, List.append_nil]

theorem Inv.writeStep (hcap : Aligned cap) :
    Inv cap (s.writeStep cap).1 (ws ++ writes (s.writeStep cap).2) (rs ++ reads (s.writeStep cap).2) := by
  unfold State.writeStep
  split
  · exact h.append_nil
  · exact Inv.append_nil { h with writer := h.writePos, reader := h.reader }
  · next element wrPos hw =>
    have hknows := h.writer
    rw [hw] at hknows
    obtain rfl : wrPos = wrap (ws.length + 1) := hknows
    split
    · exact Inv.append_nil { h with writer := trivial, reader := h.reader }
    · next hlt =>
      rw [h.wrap_sub_eq hcap] at hlt
      unfold Capacity.chunkCount at hlt
      exact Inv.append_nil { h with writer := ⟨rfl, by omega⟩, reader := h.reader }
  · next element chunk hw => exact (h.store hcap hw).append_nil
  · next element chunk hw => exact (List.append_nil rs).symm ▸ h.endWrite hw

theorem Inv.endRead {element : Option α} (hr : s.reader = .endRead chunk element) :
    Inv cap { s with readPos := wrap (s.readPos + 1), reader := .idle } ws (rs ++ [element]) := by
  have hknows := h.reader
  rw [hr] at hknows
  obtain ⟨x, hx, rfl⟩ := hknows
  obtain ⟨hlt, hget⟩ := List.getElem?_eq_some_iff.mp hx
  have hlen : (rs ++ [some x.2]).length = rs.length + 1 := length_append
  exact {
    writePos := h.writePos
    readPos := by rw [hlen, h.readPos, wrap_succ]
    le := by rw [hlen]; exact hlt
    bound := by rw [hlen]; exact Nat.le_trans h.bound (Nat.add_le_add_right (Nat.le_succ _) _)
    values := by
      rw [hlen, take_add_one, hx, map_append, ← h.values]
      rfl
    stored := fun i y hi hy => h.stored i y (by omega) hy
    writer := h.writer.mono (hlen ▸ Nat.le_succ _)
    reader := trivial }

theorem Inv.readStep (hcap : Aligned cap) :
    Inv cap (s.readStep cap).1 (ws ++ writes (s.readStep cap).2) (rs ++ reads (s.readStep cap).2) := by
  have hknows := h.reader
  unfold State.readStep
  split
  · exact h.append_nil
  · exact Inv.append_nil { h with writer := h.writer, reader := h.readPos }
  · next rdPos hr =>
    rw [hr] at hknows
    obtain rfl : rdPos = wrap rs.length := hknows
    split
    · exact Inv.append_nil { h with writer := h.writer, reader := trivial }
    · next hne =>
      rw [h.wrap_eq hcap] at hne
      have hlt : rs.length < ws.length := lt_of_le_of_ne h.le (Ne.symm hne)
      exact Inv.append_nil { h with
        writer := h.writer
        reader := ⟨by rw [wrap_succ]; rfl, ws[rs.length], List.getElem?_eq_getElem hlt⟩ }
  · next chunk hr =>
    rw [hr] at hknows
    obtain ⟨rfl, x, hx⟩ := hknows
    obtain ⟨hslot, hchunk⟩ := h.stored rs.length x (le_refl _) hx
    exact Inv.append_nil { h with writer := h.writer, reader := ⟨x, hx, hslot ▸ hchunk⟩ }
  · next chunk element hr => exact (List.append_nil ws).symm ▸ h.endRead hr

end
end

theorem Run.inv (h : Run cap s evs) (hcap : Aligned cap) : Inv cap s (writes evs) (reads evs) := by
  induction h with
  | start => exact inv_start cap
  | @step s evs _ a ih =>
    rw [writes_append, reads_append]
    cases a with
    | pushBack element =>
      simp only [State.step]
      split
      · exact Inv.append_nil { ih with writer := trivial, reader := ih.reader }
      · exact ih.append_nil
    | write => exact ih.writeStep hcap
    | popFront =>
      simp only [State.step]
      split
      · exact Inv.append_nil { ih with writer := ih.writer, reader := trivial }
      · exact ih.append_nil
    | read => exact ih.readStep hcap

theorem Inv.boundedFifo (h : Inv cap s (writes evs) (reads evs)) (hcap : Aligned cap) : BoundedFifo cap s evs where
  values := by
    have hsplit := congrArg (List.map fun x : Nat × α => some x.2) (take_append_drop (reads evs).length (writes evs))
    rw [map_append, ← h.values] at hsplit
    exact ⟨_, hsplit⟩
  full element wrPos hw := by
    have hknows := h.writer
    rw [hw] at hknows
    obtain rfl : wrPos = wrap ((writes evs).length + 1) := hknows
    have hsub := h.wrap_sub_eq hcap
    have hbound := h.bound
    have hle := h.le
    simp only [State.step, State.writeStep, hw, hsub, unread, length_drop]
    unfold Capacity.chunkCount
    split
    · simp only [mem_singleton, true_iff]
      omega
    · simp only [not_mem_nil, false_iff]
      omega
  empty rdPos hr := by
    have hknows := h.reader
    rw [hr] at hknows
    obtain rfl : rdPos = wrap (reads evs).length := hknows
    have hle := h.le
    have heq := h.wrap_eq hcap
    simp only [State.step, State.readStep, hr, unread, drop_eq_nil_iff]
    split
    · next hwrap =>
      simp only [mem_singleton, true_iff]
      exact (heq.mp hwrap).le
    · next hwrap =>
      simp only [not_mem_nil, false_iff]
      exact fun hle' => hwrap (heq.mpr (le_antisymm hle' hle))
  exclusive k hk x hx := by
    have hroom : k = slot cap ((writes evs).length + 1) ∧ (writes evs).length < (reads evs).length + cap.nChunks := by
      have hknows := h.writer
      cases hw : s.writer with
      | idle => rw [hw] at hk; cases hk
      | loadWritePos element => rw [hw] at hk; cases hk
      | loadReadPos element wrPos => rw [hw] at hk; cases hk
      | store element chunk =>
        rw [hw] at hk hknows
        cases hk
        exact hknows
      | endWrite element chunk =>
        rw [hw] at hk hknows
        cases hk
        exact ⟨hknows.1, hknows.2.1⟩
    obtain ⟨i, hi⟩ := List.getElem?_of_mem hx
    rw [unread, List.getElem?_drop] at hi
    rw [hroom.1]
    exact h.slot_free hcap hroom.2 (le_add_right _ i) hi

/-! ## Buffers that are not aligned -/

/-- Both threads are between calls; `W` elements were written and `R` read. -/
structure Quiet (cap : Capacity) (s : State α) (evs : List (Event α)) (W R : Nat) : Prop where
  run : Run cap s evs
  writer : s.writer = .idle
  reader : s.reader = .idle
  writePos : s.writePos = wrap (W + 1)
  readPos : s.readPos = wrap R
  length_writes : (writes evs).length = W
  length_reads : (reads evs).length = R
  slots : ∀ i x, (writes evs)[i]? = some x → x.1 = slot cap (i + 1)

section
variable {cap : Capacity} {s : State α} {evs : List (Event α)} {W R : Nat}

theorem quiet_start (cap : Capacity) : Quiet cap ({} : State α) [] 0 0 where
  run := .start
  writer := rfl
  reader := rfl
  writePos := rfl
  readPos := rfl
  length_writes := rfl
  length_reads := rfl
  slots i x h := by cases h

section
variable (h : Quiet cap s evs W R) (element : α)
include h element

theorem Quiet.checking : Run cap { s with writer := .loadReadPos element (wrap (W + 1)) } evs := by
  have h1 := h.run.step (.pushBack element)
  simp only [State.step, h.writer, append_nil] at h1
  have h2 := h1.step .write
  simp only [State.step, State.writeStep, append_nil, h.writePos] at h2
  exact h.writePos ▸ h2

section
variable (hfree : wrap (wrap (W + 1) + 4294967296 - wrap R) < cap.chunkCount)
include hfree

theorem Quiet.storing : Run cap { s with writer := .store element (slot cap (W + 1)) } evs := by
  have h1 := (h.checking element).step .write
  simp only [State.step, State.writeStep, h.readPos, ge_iff_le, not_le.mpr hfree, if_false, append_nil] at h1
  exact h.readPos ▸ h1

theorem Quiet.pushBack : ∃ s' evs', Quiet (α := α) cap s' evs' (W + 1) R := by
  have h1 := (h.storing element hfree).step .write
  simp only [State.step, State.writeStep, append_nil] at h1
  have h2 := h1.step .write
  simp only [State.step, State.writeStep] at h2
  have hwrites : writes (evs ++ [.wrote (slot cap (W + 1)) element]) = writes evs ++ [(slot cap (W + 1), element)] :=
    writes_append ..
  have hreads : reads (evs ++ [.wrote (slot cap (W + 1)) element]) = reads evs := (reads_append ..).trans (append_nil _)
  refine ⟨_, _, ⟨h2, rfl, h.reader, ?_, h.readPos, ?_, ?_, fun i x hx => ?_⟩⟩
  · show wrap (s.writePos + 1) = wrap (W + 1 + 1)
    rw [h.writePos, wrap_succ]
  · rw [hwrites, length_append, h.length_writes]
    rfl
  · rw [hreads, h.length_reads]
  · rw [hwrites] at hx
    obtain ⟨hlt, -⟩ := List.getElem?_eq_some_iff.mp hx
    rw [length_append, length_singleton] at hlt
    rcases Nat.lt_succ_iff_lt_or_eq.mp hlt with hlt | rfl
    · rw [List.getElem?_append_left hlt] at hx
      exact h.slots i x hx
    · rw [List.getElem?_concat_length] at hx
      cases hx
      rw [h.length_writes]

end
end

theorem Quiet.popFront (h : Quiet cap s evs W R) (hne : wrap (R + 1) ≠ wrap (W + 1)) :
    ∃ s' evs', Quiet (α := α) cap s' evs' W (R + 1) := by
  have h1 := h.run.step .popFront
  simp only [State.step, h.reader, append_nil] at h1
  have h2 := h1.step .read
  simp only [State.step, State.readStep, append_nil, h.readPos] at h2
  have h3 := h2.step .read
  simp only [State.step, State.readStep, append_nil, wrap_succ, h.writePos, hne, if_false] at h3
  have h4 := h3.step .read
  simp only [State.step, State.readStep, append_nil] at h4
  have h5 := h4.step .read
  simp only [State.step, State.readStep] at h5
  generalize helem : s.chunks (wrap (R + 1) % cap.chunkCount) = element at h5
  have hwrites : writes (evs ++ [.read element]) = writes evs := (writes_append ..).trans (append_nil _)
  have hreads : reads (evs ++ [.read element]) = reads evs ++ [element] := reads_append ..
  refine ⟨_, _, ⟨h5, h.writer, rfl, rfl, wrap_succ R, ?_, ?_, ?_⟩⟩
  · rw [hwrites, h.length_writes]
  · rw [hreads, length_append, h.length_reads]
    rfl
  · rw [hwrites]
    exact h.slots

end

variable [Inhabited α]

theorem quiet_fill (k : Nat) (h : ∃ (s : State α) (evs : List (Event α)), Quiet cap s evs W R)
    (hfree : ∀ i < k, wrap (wrap (W + i + 1) + 4294967296 - wrap R) < cap.chunkCount) :
    ∃ (s : State α) (evs : List (Event α)), Quiet cap s evs (W + k) R := by
  induction k with
  | zero => exact h
  | succ k ih =>
    obtain ⟨s, evs, hq⟩ := ih fun i hi => hfree i (lt_succ_of_lt hi)
    exact hq.pushBack default (hfree k (lt_succ_self k))

theorem quiet_both (hc : 2 ≤ cap.chunkCount) (k : Nat) :
    ∃ (s : State α) (evs : List (Event α)), Quiet cap s evs k k := by
  induction k with
  | zero => exact ⟨_, _, quiet_start cap⟩
  | succ k ih =>
    obtain ⟨s, evs, hq⟩ := ih
    obtain ⟨s', evs', hq'⟩ := hq.pushBack default (by
      rw [wrap_sub (by omega) (by omega)]
      omega)
    refine hq'.popFront ?_
    rw [ne_eq, wrap_eq_iff (by omega) (by omega)]
    omega

theorem not_boundedFifo_of_large (hc : 4294967296 ≤ cap.chunkCount) :
    ∃ (s : State α) (evs : List (Event α)), Run cap s evs ∧ ¬ BoundedFifo cap s evs := by
  have hfree : ∀ x, wrap x < cap.chunkCount := fun x =>
    lt_of_lt_of_le (mod_lt _ (by decide)) hc
  obtain ⟨s, evs, hq⟩ := quiet_fill (α := α) cap.nChunks ⟨_, _, quiet_start cap⟩ fun i _ => hfree _
  refine ⟨_, evs, hq.checking default, fun hfifo => ?_⟩
  have hnull := (hfifo.full default _ rfl).mpr (by
    rw [unread, length_drop, hq.length_writes, hq.length_reads]
    omega)
  simp only [State.step, State.writeStep, ge_iff_le, not_le.mpr (hfree _), if_false] at hnull
  cases hnull

theorem not_boundedFifo_of_lt (cap : Capacity) (hc : cap.chunkCount < 4294967296) (hcap : ¬ Aligned cap) :
    ∃ (s : State α) (evs : List (Event α)), Run cap s evs ∧ ¬ BoundedFifo cap s evs := by
  have hpos : 0 < cap.chunkCount := succ_pos _
  obtain ⟨r, hr⟩ : ∃ r, 4294967296 % cap.chunkCount = r + 1 := by
    refine exists_eq_succ_of_ne_zero fun h => hcap ⟨hc, .inl h⟩
  have hr' : r + 3 ≤ cap.chunkCount := by
    have hlt := mod_lt 4294967296 hpos
    have hne : 4294967296 % cap.chunkCount ≠ cap.chunkCount - 1 := fun h => hcap ⟨hc, .inr h⟩
    omega
  have hfree : ∀ i < r + 2, wrap (wrap (4294967294 + i + 1) + 4294967296 - wrap 4294967294) < cap.chunkCount := by
    intro i hi
    rw [wrap_sub (by omega) (by omega)]
    omega
  obtain ⟨s, evs, hq⟩ := quiet_fill (r + 1) (quiet_both (α := α) (by omega) 4294967294) fun i hi => hfree i (by omega)
  refine ⟨_, evs, hq.storing default (hfree (r + 1) (lt_succ_self _)), fun hfifo => ?_⟩
  -- the first element in the buffer has the last position before the counter wraps
  have hlt : 4294967294 < (writes evs).length := by
    rw [hq.length_writes]
    omega
  have hmem : (writes evs)[4294967294] ∈ unread evs := by
    rw [unread, hq.length_reads]
    exact mem_of_getElem? (i := 0) (by rw [List.getElem?_drop]; exact List.getElem?_eq_getElem hlt)
  refine hfifo.exclusive (slot cap (4294967294 + (r + 1) + 1)) rfl _ hmem ?_
  rw [hq.slots 4294967294 _ (List.getElem?_eq_getElem hlt)]
  have hlast : wrap (4294967294 + 1) = 4294967295 := rfl
  have hfirst : wrap (4294967294 + (r + 1) + 1) = r := by
    unfold wrap
    omega
  have hmod : 4294967295 + 1 ≡ r + 1 [MOD cap.chunkCount] := by
    rw [Nat.ModEq, hr, mod_eq_of_lt (by omega)]
  unfold slot
  rw [hlast, hfirst]
  exact Nat.ModEq.add_right_cancel' 1 hmod

/-- The buffer is a bounded queue in every run exactly if it is aligned. -/
theorem boundedFifo_iff_aligned (cap : Capacity) :
    (∀ (s : State α) (evs : List (Event α)), Run cap s evs → BoundedFifo cap s evs) ↔ Aligned cap := by
  constructor
  · intro h
    by_contra hcap
    rcases Nat.lt_or_ge cap.chunkCount 4294967296 with hc | hc
    · obtain ⟨s, evs, hrun, hnot⟩ := not_boundedFifo_of_lt (α := α) cap hc hcap
      exact hnot (h s evs hrun)
    · obtain ⟨s, evs, hrun, hnot⟩ := not_boundedFifo_of_large (α := α) hc
      exact hnot (h s evs hrun)
  · intro hcap s evs hrun
    exact (hrun.inv hcap).boundedFifo hcap

def twoElements : Capacity where
  nChunks := 2
  fits := by decide

/-- With three chunks the positions `2 ^ 32 - 1` and `0` have the same chunk. -/
theorem twoElements_not_boundedFifo : ∃ (s : State Bool) (evs : List (Event Bool)),
    Run twoElements s evs ∧ ¬ BoundedFifo twoElements s evs ∧
      slot twoElements 4294967295 = slot twoElements 4294967296 := by
  obtain ⟨s, evs, hrun, hnot⟩ := not_boundedFifo_of_lt (α := Bool) twoElements (by decide) (by decide)
  exact ⟨s, evs, hrun, hnot, by decide⟩

end Roc.Core.SpscRingBuffer
