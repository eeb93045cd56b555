import Mathlib.Data.List.Basic
import Mathlib.Algebra.Order.Group.Nat

/-!
# RocToolkit.Netio.UdpReceive

The receiving side of `netio::UdpPort` (roc_netio/target_libuv/udp_port.cpp): libuv asks
`alloc_cb_` for memory and gives it back to `recv_cb_`. In between a buffer is known to libuv by a
raw pointer only, so `alloc_cb_` takes a reference for it that `recv_cb_` has to release.

Buffers are numbered in the order they are allocated; `refs` are their reference counters. The
writer behind `inbound_writer_` is the queue of an endpoint, which takes every packet; the packets
in it hold their buffers until they are released. What libuv has in its hands is `lent`.
-/

namespace Roc.Netio

open List

/-- `uv_buf_t`: the buffer it points into, `none` for a null pointer, and a length. -/
structure UvBuf where
  base : Option Nat
  len : Nat
deriving DecidableEq, Repr

/-- `UV_ENOBUFS`. -/
def uvEnobufs : Int := -105

/-- What stops the program in `recv_cb_`. -/
inductive RecvFault where
  /-- `Buffer::container_of` of a null pointer, and a reference through it -/
  | nullBuffer
  /-- `roc_panic_if(bp->getref() != 2)` -/
  | refCount
  /-- "unexpected null source address" -/
  | nullSource
  /-- "unexpected buffer size" -/
  | bufferSize
deriving DecidableEq, Repr

/-- A packet handed to the inbound writer; its buffer holds `size` bytes of payload. -/
structure InPacket (α : Type) where
  srcAddr : Option α
  dstAddr : α
  receiveTimestamp : Int
  buffer : Nat
  size : Nat
deriving DecidableEq, Repr

structure UdpReceiver (α : Type) where
  bindAddress : α
  /-- the size of the packet factory's buffers -/
  bufferSize : Nat
  hasWriter : Bool
  refs : Nat → Nat := fun _ => 0
  numBuffers : Nat := 0
  receivedPackets : Nat := 0
  inbound : List (InPacket α) := []
  lent : List UvBuf := []
  -- the buffers a reference was taken for in `alloc_cb_`, and those it was released for
  taken : List Nat := []
  released : List Nat := []

namespace UdpReceiver

variable {α : Type}

/-- `RefCounted::incref`. -/
def incref (r : UdpReceiver α) (b : Nat) : UdpReceiver α :=
  { r with refs := Function.update r.refs b (r.refs b + 1) }

/-- `RefCounted::decref`; at zero the buffer goes back to its pool. -/
def decref (r : UdpReceiver α) (b : Nat) : UdpReceiver α :=
  { r with refs := Function.update r.refs b (r.refs b - 1) }

/-- `alloc_cb_`; `allocated` says whether the packet factory has a buffer. -/
def allocCb (r : UdpReceiver α) (size : Nat) (allocated : Bool) : UvBuf × UdpReceiver α :=
  if allocated then
    let b := r.numBuffers
    -- the shared pointer, the reference for `recv_cb_`, and the end of the shared pointer
    let r := (({ r with numBuffers := b + 1 }.incref b).incref b).decref b
    (⟨some b, min size r.bufferSize⟩, { r with taken := b :: r.taken })
  else (⟨none, 0⟩, r)

/-- The rest of `recv_cb_` once the reference of `alloc_cb_` is released; the shared pointer still
holds one. `newPacket` says whether the packet factory has a packet. -/
def processDatagram (r : UdpReceiver α) (b : Nat) (nread : Int) (source : Option (Option α))
    (truncated newPacket : Bool) (time : Int) : Except RecvFault (UdpReceiver α) :=
  if nread < 0 then .ok r
  else if nread = 0 then .ok r
  else
    match source with
    | none => .error .nullSource
    | some srcAddr =>
      if truncated then .ok r
      else
        let r := { r with receivedPackets := r.receivedPackets + 1 }
        if (r.bufferSize : Int) < nread then .error .bufferSize
        else if newPacket then
          if r.hasWriter then
            -- the slice in the packet refers to the buffer
            let r := r.incref b
            .ok { r with inbound := r.inbound ++ [⟨srcAddr, r.bindAddress, time, b, nread.toNat⟩] }
          else .ok r
        else .ok r

/-- The reference of `alloc_cb_` is released. -/
def releaseLent (r : UdpReceiver α) (b : Nat) : UdpReceiver α :=
  { r.decref b with released := b :: r.released }

/-- `recv_cb_`. The source address is null, unknown to roc, or an address. -/
def recvCb (r : UdpReceiver α) (nread : Int) (buf : UvBuf) (source : Option (Option α))
    (truncated newPacket : Bool) (time : Int) : Except RecvFault (UdpReceiver α) :=
  match buf.base with
  | none => .error .nullBuffer
  | some b =>
    let r := r.incref b
    if r.refs b ≠ 2 then .error .refCount
    else
      match (r.releaseLent b).processDatagram b nread source truncated newPacket time with
      | .error e => .error e
      | .ok r => .ok (r.decref b)

/-- What happens to the port: libuv wants memory, libuv has read (or failed to), and the receiving
side is done with a packet. -/
inductive Event (α : Type) where
  | alloc (size : Nat) (allocated : Bool)
  | recv (nread : Int) (buf : UvBuf) (source : Option (Option α)) (truncated newPacket : Bool) (time : Int)
  | release (packet : InPacket α)

section Runs

variable [DecidableEq α]

def step (r : UdpReceiver α) : Event α → Except RecvFault (UdpReceiver α)
  | .alloc size allocated =>
    let (buf, r) := r.allocCb size allocated
    .ok { r with lent := buf :: r.lent }
  | .recv nread buf source truncated newPacket time =>
    { r with lent := r.lent.erase buf }.recvCb nread buf source truncated newPacket time
  | .release packet =>
    .ok ({ r with inbound := r.inbound.erase packet }.decref packet.buffer)

/-- libuv keeps its contract: it gives back a buffer it has, and reports `UV_ENOBUFS` without an
address if that is a null buffer; it reads no more than fits; data comes from somewhere. Packets
are released by who has them. -/
def Conforms (r : UdpReceiver α) : Event α → Prop
  | .alloc .. => True
  | .recv nread buf source .. =>
    buf ∈ r.lent ∧ (buf.base = none → nread = uvEnobufs ∧ source = none) ∧ nread ≤ buf.len ∧
      (0 < nread → source ≠ none)
  | .release packet => packet ∈ r.inbound

/-- Runs one event after the other. -/
def run : List (Event α) → UdpReceiver α → Except RecvFault (UdpReceiver α)
  | [], r => .ok r
  | e :: rest, r =>
    match r.step e with
    | .error fault => .error fault
    | .ok r => run rest r

/-- Every event of the run is one libuv and the receiving side may cause then. -/
def Conforming : List (Event α) → UdpReceiver α → Prop
  | [], _ => True
  | e :: rest, r => r.Conforms e ∧ ∀ r', r.step e = .ok r' → Conforming rest r'

end Runs

/-! ## References -/

def lentRefs (r : UdpReceiver α) (b : Nat) : Nat := (r.lent.filterMap UvBuf.base).count b

def inboundRefs (r : UdpReceiver α) (b : Nat) : Nat := (r.inbound.map InPacket.buffer).count b

/-- Every reference is accounted for between two callbacks: a buffer belongs to libuv or to a
packet, and each reference taken for libuv was released once when the buffer came back. -/
structure Accounted (r : UdpReceiver α) : Prop where
  refs : ∀ b, r.refs b = r.lentRefs b + r.inboundRefs b
  owner : ∀ b, r.lentRefs b + r.inboundRefs b ≤ 1
  once : ∀ b, r.taken.count b = r.released.count b + r.lentRefs b
  taken : ∀ b, r.taken.count b ≤ 1
  fresh : ∀ b, r.numBuffers ≤ b → r.lentRefs b + r.inboundRefs b = 0 ∧ r.taken.count b = 0
  len : ∀ buf ∈ r.lent, buf.len ≤ r.bufferSize

variable {r r' : UdpReceiver α}

theorem lentRefs_cons (buf : UvBuf) (b : Nat) :
    { r with lent := buf :: r.lent }.lentRefs b = r.lentRefs b + if buf.base = some b then 1 else 0 := by
  unfold lentRefs
  cases hbase : buf.base with
  | none => simp [hbase]
  | some c => simp [hbase, count_cons]

variable {buf : UvBuf} {packet : InPacket α} {source : Option (Option α)}

theorem lentRefs_erase (h : buf ∈ r.lent) (b : Nat) :
    r.lentRefs b = { r with lent := r.lent.erase buf }.lentRefs b + if buf.base = some b then 1 else 0 := by
  rw [← lentRefs_cons (r := { r with lent := r.lent.erase buf })]
  exact ((perm_cons_erase h).filterMap UvBuf.base).count_eq b

theorem inboundRefs_erase [DecidableEq α] (h : packet ∈ r.inbound) (b : Nat) :
    r.inboundRefs b = { r with inbound := r.inbound.erase packet }.inboundRefs b +
      if packet.buffer = b then 1 else 0 := by
  have hperm := ((perm_cons_erase h).map InPacket.buffer).count_eq b
  simpa [inboundRefs, count_cons] using hperm

theorem refs_increfs (b c : Nat) : (((r.incref b).incref b).decref b).refs c = r.refs c + if b = c then 1 else 0 := by
  by_cases hbc : b = c
  · subst hbc
    simp [incref, decref]
  · simp [incref, decref, hbc, Function.update_of_ne (Ne.symm hbc)]

theorem Accounted.lend (h : r.Accounted) {size : Nat} (hsize : size ≤ r.bufferSize)
    (hbufferSize : r'.bufferSize = r.bufferSize) (hnum : r'.numBuffers = r.numBuffers + 1)
    (hrefs : ∀ b, r'.refs b = r.refs b + if r.numBuffers = b then 1 else 0)
    (hlent : r'.lent = ⟨some r.numBuffers, size⟩ :: r.lent) (hinbound : r'.inbound = r.inbound)
    (htaken : r'.taken = r.numBuffers :: r.taken) (hreleased : r'.released = r.released) : r'.Accounted := by
  have hlentRefs : ∀ b, r'.lentRefs b = r.lentRefs b + if r.numBuffers = b then 1 else 0 := by
    intro b
    simp [lentRefs, hlent, count_cons]
  have hinboundRefs : ∀ b, r'.inboundRefs b = r.inboundRefs b := by
    intro b
    rw [inboundRefs, hinbound, inboundRefs]
  have hcount : ∀ b, r'.taken.count b = r.taken.count b + if r.numBuffers = b then 1 else 0 := by
    intro b
    simp [htaken, count_cons]
  -- the new buffer is one nobody has a reference to
  have hnew := h.fresh r.numBuffers le_rfl
  refine ⟨?_, ?_, ?_, ?_, ?_, ?_⟩
  · intro b
    have := h.refs b
    rw [hrefs, hlentRefs, hinboundRefs]
    omega
  · intro b
    have := h.owner b
    rw [hlentRefs, hinboundRefs]
    split
    · subst b
      omega
    · omega
  · intro b
    have := h.once b
    rw [hcount, hlentRefs, hreleased]
    omega
  · intro b
    have := h.taken b
    rw [hcount]
    split
    · subst b
      omega
    · omega
  · intro b hb
    rw [hnum] at hb
    have := h.fresh b (by omega)
    rw [hlentRefs, hinboundRefs, hcount, if_neg (by omega)]
    exact this
  · intro buf hmem
    rw [hbufferSize]
    rw [hlent] at hmem
    rcases mem_cons.mp hmem with rfl | hmem
    · exact hsize
    · exact h.len buf hmem

theorem Accounted.alloc (h : r.Accounted) (size : Nat) (allocated : Bool) :
    Accounted { (r.allocCb size allocated).2 with
      lent := (r.allocCb size allocated).1 :: (r.allocCb size allocated).2.lent } := by
  cases allocated with
  | true =>
    exact h.lend (Nat.min_le_right size _) rfl rfl (fun b => refs_increfs r.numBuffers b) rfl rfl rfl rfl
  | false =>
    -- a null buffer is no reference
    refine ⟨?_, ?_, ?_, h.taken, ?_, ?_⟩
    · intro b
      rw [lentRefs_cons]
      exact h.refs b
    · intro b
      rw [lentRefs_cons]
      exact h.owner b
    · intro b
      rw [lentRefs_cons]
      exact h.once b
    · intro b hb
      rw [lentRefs_cons]
      exact h.fresh b hb
    · intro buf hmem
      rcases mem_cons.mp hmem with rfl | hmem
      · exact Nat.zero_le _
      · exact h.len buf hmem

/-- A buffer comes back from libuv and goes on with a packet (`kept = 1`) or not at all. -/
theorem Accounted.giveBack (h : r.Accounted) {b kept : Nat} (hbuf : buf ∈ r.lent)
    (hbase : buf.base = some b) (hkept : kept ≤ 1) (hbufferSize : r'.bufferSize = r.bufferSize)
    (hnum : r'.numBuffers = r.numBuffers)
    (hrefs : ∀ c, r'.refs c + (if b = c then 1 else 0) = r.refs c + if b = c then kept else 0)
    (hlent : r'.lent = r.lent.erase buf)
    (hinbound : ∀ c, r'.inboundRefs c = r.inboundRefs c + if b = c then kept else 0)
    (htaken : r'.taken = r.taken) (hreleased : r'.released = b :: r.released) : r'.Accounted := by
  have hlentRefs : ∀ c, r.lentRefs c = r'.lentRefs c + if b = c then 1 else 0 := by
    intro c
    rw [lentRefs_erase hbuf, lentRefs, lentRefs, hlent]
    simp [hbase]
  have hcount : ∀ c, r'.released.count c = r.released.count c + if b = c then 1 else 0 := by
    intro c
    simp [hreleased, count_cons]
  have hle : ∀ c, (if b = c then kept else 0) ≤ if b = c then 1 else 0 := by
    intro c
    split
    · exact hkept
    · exact le_rfl
  refine ⟨?_, ?_, ?_, ?_, ?_, ?_⟩
  · intro c
    have := h.refs c
    have := hrefs c
    have := hlentRefs c
    have := hinbound c
    omega
  · intro c
    have := h.owner c
    have := hlentRefs c
    have := hinbound c
    have := hle c
    omega
  · intro c
    have := h.once c
    have := hlentRefs c
    rw [hcount, htaken]
    omega
  · rw [htaken]
    exact h.taken
  · intro c hc
    rw [hnum] at hc
    have := h.fresh c hc
    have := hlentRefs c
    have := hinbound c
    have := hle c
    rw [htaken]
    omega
  · rw [hlent, hbufferSize]
    exact fun buf hmem => h.len buf (mem_of_mem_erase hmem)

/-- The datagram is dropped (`kept = 0`), or its buffer goes on in a packet. -/
structure Processed (r : UdpReceiver α) (b kept : Nat) (r' : UdpReceiver α) : Prop where
  kept_le : kept ≤ 1
  refs : ∀ c, r'.refs c = r.refs c + if b = c then kept else 0
  inbound : ∀ c, r'.inboundRefs c = r.inboundRefs c + if b = c then kept else 0
  frame : r'.bufferSize = r.bufferSize ∧ r'.numBuffers = r.numBuffers ∧ r'.lent = r.lent ∧
    r'.taken = r.taken ∧ r'.released = r.released

theorem Processed.drop (r : UdpReceiver α) (b n : Nat) : Processed r b 0 { r with receivedPackets := n } where
  kept_le := Nat.zero_le 1
  refs c := by rw [ite_self]; rfl
  inbound c := by rw [ite_self]; rfl
  frame := ⟨rfl, rfl, rfl, rfl, rfl⟩

theorem Processed.pass (r : UdpReceiver α) (n : Nat) (packet : InPacket α) : Processed r packet.buffer 1
      { r.incref packet.buffer with receivedPackets := n, inbound := r.inbound ++ [packet] } where
  kept_le := le_rfl
  refs c := by
    by_cases hc : packet.buffer = c
    · subst hc
      simp [incref]
    · simp [incref, hc, Function.update_of_ne (Ne.symm hc)]
  inbound c := by simp [inboundRefs, count_cons]
  frame := ⟨rfl, rfl, rfl, rfl, rfl⟩

variable {nread : Int}

theorem processDatagram_ok (hsize : nread ≤ r.bufferSize)
    (hsource : 0 < nread → source ≠ none) (b : Nat) (truncated newPacket : Bool) (time : Int) :
    ∃ kept r', r.processDatagram b nread source truncated newPacket time = .ok r' ∧ Processed r b kept r' := by
  unfold processDatagram
  split
  · exact ⟨0, r, rfl, .drop r b r.receivedPackets⟩
  · split
    · exact ⟨0, r, rfl, .drop r b r.receivedPackets⟩
    · cases source with
      | none => exact absurd rfl (hsource (by omega))
      | some srcAddr =>
        dsimp only
        split
        · exact ⟨0, r, rfl, .drop r b r.receivedPackets⟩
        · rw [if_neg (by omega)]
          split
          · split
            · exact ⟨1, _, rfl, .pass r (r.receivedPackets + 1) ⟨srcAddr, r.bindAddress, time, b, nread.toNat⟩⟩
            · exact ⟨0, _, rfl, .drop r b (r.receivedPackets + 1)⟩
          · exact ⟨0, _, rfl, .drop r b (r.receivedPackets + 1)⟩

/-- The shared pointer of `recv_cb_` comes and goes while the reference of libuv is released. -/
theorem refs_recv (b c : Nat) : ((r.incref b).releaseLent b).refs c = r.refs c := by
  simp [incref, decref, releaseLent]

theorem refs_decref (b c : Nat) (hpos : 0 < r.refs b) : (r.decref b).refs c + (if b = c then 1 else 0) = r.refs c := by
  by_cases hc : b = c
  · subst hc
    simp only [decref, Function.update_self, if_true]
    omega
  · simp [decref, hc, Function.update_of_ne (Ne.symm hc)]

/-- `recv_cb_` with a buffer of its own returns, and the buffer has one owner less or another one. -/
theorem Accounted.recv [DecidableEq α] (h : r.Accounted) {b : Nat} {truncated newPacket : Bool}
    {time : Int} (hbuf : buf ∈ r.lent) (hbase : buf.base = some b) (hlen : nread ≤ buf.len)
    (hsource : 0 < nread → source ≠ none) :
    ∃ r', r.step (.recv nread buf source truncated newPacket time) = .ok r' ∧ r'.Accounted := by
  -- the only reference is the one libuv stands for
  have hone : r.refs b = 1 := by
    have hlent := lentRefs_erase hbuf b
    have howner := h.owner b
    rw [if_pos hbase] at hlent
    have := h.refs b
    omega
  have hsize : nread ≤ r.bufferSize := hlen.trans (by exact_mod_cast h.len buf hbuf)
  generalize hr0 : ({ r with lent := r.lent.erase buf } : UdpReceiver α) = r0
  have hrefs0 : r0.refs = r.refs := by rw [← hr0]
  have hsize0 : nread ≤ ((r0.incref b).releaseLent b).bufferSize := by
    rw [← hr0]
    exact hsize
  obtain ⟨kept, r1, hproc, hr1⟩ := processDatagram_ok hsize0 hsource b truncated newPacket time
  obtain ⟨hbufferSize, hnum, hlent, htaken, hreleased⟩ := hr1.frame
  have hrefs1 : ∀ c, r1.refs c = r.refs c + if b = c then kept else 0 := by
    intro c
    rw [hr1.refs, refs_recv, hrefs0]
  refine ⟨r1.decref b, ?_, h.giveBack hbuf hbase hr1.kept_le ?_ ?_ ?_ ?_ ?_ ?_ ?_⟩
  · simp only [step, recvCb, hbase, hr0]
    rw [if_neg (by simp [incref, hrefs0, hone]), hproc]
  · exact hbufferSize.trans (by rw [← hr0]; rfl)
  · exact hnum.trans (by rw [← hr0]; rfl)
  · intro c
    rw [refs_decref b c (by rw [hrefs1, hone]; omega), hrefs1]
  · exact hlent.trans (by rw [← hr0]; rfl)
  · intro c
    exact (hr1.inbound c).trans (by rw [← hr0]; rfl)
  · exact htaken.trans (by rw [← hr0]; rfl)
  · exact hreleased.trans (by rw [← hr0]; rfl)

theorem Accounted.release [DecidableEq α] (h : r.Accounted) (hmem : packet ∈ r.inbound) :
    Accounted ({ r with inbound := r.inbound.erase packet }.decref packet.buffer) := by
  have hinbound := inboundRefs_erase hmem
  have hpos : 0 < r.refs packet.buffer := by
    have := h.refs packet.buffer
    have := hinbound packet.buffer
    rw [if_pos rfl] at this
    omega
  have hrefs := refs_decref (r := { r with inbound := r.inbound.erase packet }) packet.buffer
  refine ⟨?_, ?_, h.once, h.taken, ?_, h.len⟩
  · intro c
    have hc := hrefs c hpos
    have hold := h.refs c
    rw [hinbound c] at hold
    simp only at hc
    change _ = r.lentRefs c + ({ r with inbound := r.inbound.erase packet } : UdpReceiver α).inboundRefs c
    omega
  · intro c
    have := h.owner c
    rw [hinbound c] at this
    exact le_trans (by exact Nat.add_le_add_left (Nat.le_add_right _ _) _) this
  · intro c hc
    have := h.fresh c hc
    rw [hinbound c] at this
    refine ⟨?_, this.2⟩
    change r.lentRefs c + ({ r with inbound := r.inbound.erase packet } : UdpReceiver α).inboundRefs c = 0
    omega

def new (bindAddress : α) (bufferSize : Nat) (hasWriter : Bool) : UdpReceiver α where
  bindAddress := bindAddress
  bufferSize := bufferSize
  hasWriter := hasWriter

theorem Accounted.new (bindAddress : α) (bufferSize : Nat) (hasWriter : Bool) :
    (UdpReceiver.new bindAddress bufferSize hasWriter).Accounted := by
  constructor <;> simp [UdpReceiver.new, lentRefs, inboundRefs]

/-! ## Runs -/

section Runs

variable [DecidableEq α]

/-- A null buffer comes back: an allocation in `alloc_cb_` had failed. -/
def Event.ReturnsNull : Event α → Prop
  | .recv _ buf .. => buf.base = none
  | _ => False

variable {e : Event α}

theorem step_of_returnsNull (h : e.ReturnsNull) : r.step e = .error .nullBuffer := by
  cases e with
  | alloc => cases h
  | release => cases h
  | recv nread buf source truncated newPacket time =>
    have hbase : buf.base = none := h
    simp [step, recvCb, hbase]

theorem Accounted.step (h : r.Accounted) (hconf : r.Conforms e) (hnull : ¬ e.ReturnsNull) :
    ∃ r', r.step e = .ok r' ∧ r'.Accounted := by
  cases e with
  | alloc size allocated => exact ⟨_, rfl, h.alloc size allocated⟩
  | release packet => exact ⟨_, rfl, h.release hconf⟩
  | recv nread buf source truncated newPacket time =>
    obtain ⟨hbuf, -, hlen, hsource⟩ := hconf
    cases hbase : buf.base with
    | none => exact absurd hbase hnull
    | some b => exact h.recv hbuf hbase hlen hsource

theorem Accounted.run_iff (h : r.Accounted) {events : List (Event α)} (hconf : Conforming events r) :
    (∃ r', run events r = .ok r' ∧ r'.Accounted) ↔ ∀ e ∈ events, ¬ e.ReturnsNull := by
  induction events generalizing r with
  | nil => exact iff_of_true ⟨r, rfl, h⟩ (by simp)
  | cons e rest ih =>
    obtain ⟨hconf, hrest⟩ := hconf
    unfold run
    rw [forall_mem_cons]
    by_cases hnull : e.ReturnsNull
    · rw [step_of_returnsNull hnull]
      refine iff_of_false ?_ fun hall => hall.1 hnull
      rintro ⟨r', hrun, -⟩
      cases hrun
    · obtain ⟨r1, hstep, hr1⟩ := h.step hconf hnull
      rw [hstep]
      exact (ih hr1 (hrest r1 hstep)).trans (and_iff_right hnull).symm

/-- Receiving goes on through every sequence of callbacks, with every reference taken in `alloc_cb_`
released exactly once when its buffer comes back, if and only if `recv_cb_` is never called with a
null buffer. -/
theorem reception_survives_iff (bindAddress : α) (bufferSize : Nat) (hasWriter : Bool)
    (events : List (Event α)) (hconf : Conforming events (new bindAddress bufferSize hasWriter)) :
    (∃ r, run events (new bindAddress bufferSize hasWriter) = .ok r ∧ r.Accounted) ↔
      ∀ e ∈ events, ¬ e.ReturnsNull :=
  Accounted.run_iff (.new bindAddress bufferSize hasWriter) hconf

/-- A datagram for which there is a buffer but no packet. -/
theorem reception_survives_one :
    ∃ r, run [.alloc 65536 true, .recv 100 ⟨some 0, 2048⟩ (some (some 7)) false false 5]
      (new 1 2048 true) = .ok r ∧ r.Accounted := by
  refine (reception_survives_iff 1 2048 true _ ?_).mpr (by simp [Event.ReturnsNull])
  refine ⟨trivial, fun r' hstep => ⟨?_, fun _ _ => trivial⟩⟩
  cases hstep
  exact ⟨List.mem_cons_self, nofun, by decide, nofun⟩

/-- No buffer for one datagram: libuv reports `UV_ENOBUFS` and the port takes a reference through a
null pointer. -/
theorem exhausted_nullBuffer :
    let events : List (Event Nat) := [.alloc 65536 false, .recv uvEnobufs ⟨none, 0⟩ none false true 5]
    Conforming events (new 1 2048 true) ∧ run events (new 1 2048 true) = .error .nullBuffer := by
  refine ⟨⟨trivial, fun r' hstep => ⟨?_, fun _ _ => trivial⟩⟩, rfl⟩
  cases hstep
  exact ⟨List.mem_cons_self, fun _ => ⟨rfl, rfl⟩, by decide, by decide⟩

end Runs

end UdpReceiver

end Roc.Netio
