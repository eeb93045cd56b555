import RocToolkit.Lib.Chain
import RocToolkit.Rtcp.Headers

/-!
# RocToolkit.Rtcp.Traverser

`rtcp::Traverser`: the walk over the sub-packets of a compound packet. `next` stops at the next
sub-packet of a known type; SR and RR are checked here, SDES, BYE and XR only delimited. One round
of the `for (;;)` in `next_packet_` is `visit`, and `visit_cases` is the only place where it is
taken apart.
-/

namespace Roc.Rtcp.Traverser

open Roc.Core (Slice)

open PacketHeader Option

inductive State where
  | begin_ | sr | rr | xr | sdes | bye | end_
deriving DecidableEq, Repr

/-- `cur_pkt_header_` is not kept: it points to the header at `curPos` and is only used in the round
that sets it. -/
structure Iterator where
  state : State
  buf : Slice
  curPos : Nat
  curPktLen : Nat
  curPktSlice : Slice
  error : Bool
deriving DecidableEq, Repr

/-- `Traverser::parse`. -/
def parse (buf : Slice) : Bool := !(buf.size < PacketHeader.codec.width)

/-- `Traverser::iter`. -/
def iter (buf : Slice) : Iterator :=
  { state := .begin_, buf, curPos := 0, curPktLen := 0,
    curPktSlice := Slice.ofBuffer [], error := false }

namespace Iterator

/-- `remove_padding_`: true if there is no padding or it has been removed. -/
def removePadding (it : Iterator) (header : PacketHeader) : Except Fault (Bool × Iterator) := do
  if header.hasPadding then
    let paddingLen ← it.curPktSlice.read Codec.u8 (it.curPktLen - 1)
    if paddingLen.toNat < 1 ∨ paddingLen.toNat > it.curPktLen - PacketHeader.codec.width then
      return (false, it)
    let slice ← it.buf.subslice 0 (it.curPktLen - paddingLen.toNat)
    return (true, { it with curPktSlice := slice })
  return (true, it)

/-- `check_sr_` and `check_rr_`: the fixed part of `fixed` bytes and the blocks it announces fit. -/
def checkBlocks (it : Iterator) (fixed : Nat) : Except Fault Bool := do
  let header ← it.curPktSlice.read PacketHeader.codec 0
  return !(fixed + header.counter * ReceptionReportBlock.codec.width > it.curPktSlice.size)

def fail (it : Iterator) : Loop.Round Iterator := .leave { it with error := true, state := .end_ }

def skip (it : Iterator) : Loop.Round Iterator := .again { it with curPos := it.curPos + it.curPktLen }

/-- The `case` of SR and RR: invalid packets are skipped. -/
def visitReport (it : Iterator) (header : PacketHeader) (fixed : Nat) (state : State) :
    Except Fault (Loop.Round Iterator) := do
  let (unpadded, it) ← it.removePadding header
  if !unpadded then
    return { it with error := true }.skip
  if !(← it.checkBlocks fixed) then
    return { it with error := true }.skip
  return .leave { it with state }

/-- The `switch` over packet types. -/
def dispatch (it : Iterator) (header : PacketHeader) : Except Fault (Loop.Round Iterator) :=
  if header.type = RTCP_SR then it.visitReport header SenderReportPacket.codec.width .sr
  else if header.type = RTCP_RR then it.visitReport header ReceiverReportPacket.codec.width .rr
  else if header.type = RTCP_SDES then .ok (.leave { it with state := .sdes })
  else if header.type = RTCP_BYE then .ok (.leave { it with state := .bye })
  else if header.type = RTCP_XR then .ok (.leave { it with state := .xr })
  else .ok it.skip

/-- One round of the loop of `next_packet_`. -/
def visit (it : Iterator) : Except Fault (Loop.Round Iterator) := do
  if it.curPos = it.buf.size then
    return .leave { it with state := .end_ }
  if it.curPos + PacketHeader.codec.width > it.buf.size then
    return it.fail
  let header ← it.buf.read PacketHeader.codec it.curPos
  let it := { it with curPktLen := header.lenBytes }
  if header.version ≠ V2 then
    return it.fail
  if it.curPos + it.curPktLen > it.buf.size then
    return it.fail
  let slice ← it.buf.subslice it.curPos (it.curPos + it.curPktLen)
  { it with curPktSlice := slice }.dispatch header

/-- `next`. -/
def next (it : Iterator) : Except Fault Iterator :=
  match it.state with
  | .end_ => .ok it
  | .begin_ => Loop.repeatUntil visit .outOfFuel (it.buf.size + 1) it
  | _ => Loop.repeatUntil visit .outOfFuel (it.buf.size + 1)
      { it with curPos := it.curPos + it.curPktLen }

/-- `get_sr`. -/
def getSr (it : Iterator) : Except Fault SenderReportPacket :=
  if it.state ≠ .sr then .error (.panic "rtcp traverser: get_sr() called in wrong state")
  else it.curPktSlice.read SenderReportPacket.codec 0

/-- `get_rr`. -/
def getRr (it : Iterator) : Except Fault ReceiverReportPacket :=
  if it.state ≠ .rr then .error (.panic "rtcp traverser: get_rr() called in wrong state")
  else it.curPktSlice.read ReceiverReportPacket.codec 0

/-- `get_block_by_index`, for a packet whose fixed part has `fixed` bytes. -/
def getBlockByIndex (it : Iterator) (fixed i : Nat) (pktType : String) : Except Fault ReceptionReportBlock := do
  let header ← it.curPktSlice.read PacketHeader.codec 0
  if i ≥ header.counter then
    throw (.panic (pktType ++ ": out of bounds"))
  it.curPktSlice.read ReceptionReportBlock.codec (fixed + i * ReceptionReportBlock.codec.width)

/-- `get_sr().get_block(i)`. -/
def getSrBlock (it : Iterator) (i : Nat) : Except Fault ReceptionReportBlock := do
  let _ ← it.getSr
  it.getBlockByIndex SenderReportPacket.codec.width i "rtcp sr"

/-- `get_rr().get_block(i)`. -/
def getRrBlock (it : Iterator) (i : Nat) : Except Fault ReceptionReportBlock := do
  let _ ← it.getRr
  it.getBlockByIndex ReceiverReportPacket.codec.width i "rtcp rr"

/-- `get_xr`, `get_sdes` and `get_bye`: the slice handed to the inner traverser. -/
def getSlice (it : Iterator) (state : State) : Except Fault Slice :=
  if it.state ≠ state then .error (.panic "rtcp traverser: called in wrong state")
  else .ok it.curPktSlice

end Iterator

/-! ## What a walk finds

The sub-packets form a chain delimited by their length fields; the iterator decides which of them it
stops at. -/

/-- A sub-packet with a valid header at `p`, inside the buffer. -/
def Delimited (buf : Slice) (p : Nat) : Prop :=
  p + PacketHeader.codec.width ≤ buf.size ∧ (buf.peek PacketHeader.codec p).version = V2 ∧
    p + (buf.peek PacketHeader.codec p).lenBytes ≤ buf.size

instance (buf : Slice) (p : Nat) : Decidable (Delimited buf p) := inferInstanceAs (Decidable (_ ∧ _ ∧ _))

def IsReport (h : PacketHeader) : Prop := h.type = RTCP_SR ∨ h.type = RTCP_RR

instance (h : PacketHeader) : Decidable (IsReport h) := inferInstanceAs (Decidable (_ ∨ _))

def padding (buf : Slice) (p : Nat) (h : PacketHeader) : Nat :=
  if h.hasPadding then (buf.peek Codec.u8 (p + h.lenBytes - 1)).toNat else 0

/-- Where the slice of an unpadded report begins: the source cuts it from the beginning of the whole
buffer. -/
def reportStart (p : Nat) (h : PacketHeader) : Nat := if h.hasPadding then 0 else p

/-- A report that passes `remove_padding_` and `check_sr_` or `check_rr_`. -/
def ReportOk (buf : Slice) (p : Nat) (h : PacketHeader) (fixed : Nat) : Prop :=
  (h.hasPadding = true → 1 ≤ padding buf p h ∧ padding buf p h ≤ h.lenBytes - 4) ∧
    fixed + (buf.peek PacketHeader.codec (reportStart p h)).counter * 24 ≤ h.lenBytes - padding buf p h

instance (buf : Slice) (p : Nat) (h : PacketHeader) (fixed : Nat) :
    Decidable (ReportOk buf p h fixed) := inferInstanceAs (Decidable (_ ∧ _))

/-- The state `next` stops in at a sub-packet, if it does. -/
def stopState (buf : Slice) (p : Nat) (h : PacketHeader) : Option State :=
  if h.type = RTCP_SR then if ReportOk buf p h 28 then some .sr else none
  else if h.type = RTCP_RR then if ReportOk buf p h 8 then some .rr else none
  else if h.type = RTCP_SDES then some .sdes
  else if h.type = RTCP_BYE then some .bye
  else if h.type = RTCP_XR then some .xr
  else none

def chain (buf : Slice) : Chain where
  size := buf.size
  len p := if Delimited buf p then some (buf.peek PacketHeader.codec p).lenBytes else none
  stop p := (stopState buf p (buf.peek PacketHeader.codec p)).isSome
  bad p := IsReport (buf.peek PacketHeader.codec p)
  len_pos := by
    intro p n h
    split at h
    · cases h
      have := (buf.peek PacketHeader.codec p).lenBytes_ge
      omega
    · cases h
  len_fits := by
    intro p n h
    split at h
    · rename_i hd
      cases h
      exact hd.2.2
    · cases h

section
variable {buf : Slice} {p : Nat}

@[simp] theorem chain_size : (chain buf).size = buf.size := rfl

theorem chain_len (h : Delimited buf p) : (chain buf).len p = some (buf.peek codec p).lenBytes := if_pos h

theorem chain_len_none (h : ¬ Delimited buf p) : (chain buf).len p = none := if_neg h

theorem delimited_of_len {n : Nat} (h : (chain buf).len p = some n) :
    Delimited buf p ∧ n = (buf.peek codec p).lenBytes := by
  by_cases hd : Delimited buf p
  · rw [chain_len hd] at h
    exact ⟨hd, (some.inj h).symm⟩
  · rw [chain_len_none hd] at h
    cases h

theorem chain_stop (state : State) (h : stopState buf p (buf.peek codec p) = some state) :
    (chain buf).stop p = true := by
  simp [chain, h]

theorem chain_skip (h : stopState buf p (buf.peek codec p) = none) : (chain buf).stop p = false := by
  simp [chain, h]

end

/-- The iterator stands at the sub-packet at `p`, whose header is `h`. -/
structure StoppedAt (it : Iterator) (p : Nat) (h : PacketHeader) : Prop where
  delimited : Delimited it.buf p
  header : it.buf.peek PacketHeader.codec p = h
  pos : it.curPos = p
  len : it.curPktLen = h.lenBytes
  state : stopState it.buf p h = some it.state
  slice_buf : it.curPktSlice.buf = it.buf.buf
  slice_off : it.curPktSlice.off = it.buf.off + if IsReport h then reportStart p h else p
  slice_size : it.curPktSlice.size = h.lenBytes - if IsReport h then padding it.buf p h else 0

def view (buf : Slice) : Chain.View Iterator where
  Home it := it.buf = buf
  pos it := it.curPos
  err it := it.error
  At it p := StoppedAt it p (buf.peek PacketHeader.codec p)
  Ended it := it.state = .end_

@[simp] theorem view_pos (buf : Slice) (it : Iterator) : (view buf).pos it = it.curPos := rfl

/-- An iterator whose slice is the whole sub-packet at its position, as `next_packet_` leaves it
before the `switch`. -/
structure AtPacket (it : Iterator) (h : PacketHeader) : Prop where
  delimited : Delimited it.buf it.curPos
  header : it.buf.peek PacketHeader.codec it.curPos = h
  len : it.curPktLen = h.lenBytes
  slice_buf : it.curPktSlice.buf = it.buf.buf
  slice_off : it.curPktSlice.off = it.buf.off + it.curPos
  slice_size : it.curPktSlice.size = h.lenBytes

section
variable {it : Iterator} {h : PacketHeader}

open Iterator

/-- `remove_padding_` either refuses the padding or leaves the slice at `reportStart`. -/
theorem removePadding_spec (ha : AtPacket it h) : (it.removePadding h = .ok (false, it) ∧ h.hasPadding = true ∧
      ¬ (1 ≤ padding it.buf it.curPos h ∧ padding it.buf it.curPos h ≤ h.lenBytes - 4)) ∨
    (∃ slice, it.removePadding h = .ok (true, { it with curPktSlice := slice }) ∧
      (h.hasPadding = true → 1 ≤ padding it.buf it.curPos h ∧ padding it.buf it.curPos h ≤ h.lenBytes - 4) ∧
      slice.buf = it.buf.buf ∧ slice.off = it.buf.off + reportStart it.curPos h ∧
      slice.size = h.lenBytes - padding it.buf it.curPos h) := by
  have hlen := h.lenBytes_ge
  have hfit := ha.delimited.2.2
  rw [ha.header] at hfit
  cases hp : h.hasPadding with
  | false =>
    refine .inr ⟨it.curPktSlice, by simp [removePadding, hp], by simp, ha.slice_buf, ?_, ?_⟩
    · simp [reportStart, hp, ha.slice_off]
    · simp [padding, hp, ha.slice_size]
  | true =>
    have hpad : it.curPktSlice.read Codec.u8 (it.curPktLen - 1) =
        .ok (it.buf.peek Codec.u8 (it.curPos + h.lenBytes - 1)) := by
      have hw : Codec.u8.width = 1 := rfl
      rw [Slice.read_ok (by rw [hw, ha.slice_size, ha.len]; omega)]
      rw [Slice.peek_eq_peek _ ha.slice_buf]
      rw [ha.slice_off, ha.len]; omega
    have hval : padding it.buf it.curPos h =
        (it.buf.peek Codec.u8 (it.curPos + h.lenBytes - 1)).toNat := by simp [padding, hp]
    by_cases hok : 1 ≤ padding it.buf it.curPos h ∧ padding it.buf it.curPos h ≤ h.lenBytes - 4
    · obtain ⟨slice, hs, hb, ho, hz⟩ := Slice.subslice_ok (s := it.buf)
        (a := 0) (b := h.lenBytes - padding it.buf it.curPos h) (by omega) (by omega)
      refine .inr ⟨slice, ?_, fun _ => hok, hb, ?_, by simpa using hz⟩
      · have hn : ¬ (padding it.buf it.curPos h < 1 ∨ padding it.buf it.curPos h > h.lenBytes - 4) := by
          omega
        rw [hval] at hn hs
        rw [removePadding, hpad, ha.len, codec_width]
        simp only [hp, if_true, ok_bind, hn, if_false, hs, pure_eq_ok]
      · simpa [reportStart, hp] using ho
    · refine .inl ⟨?_, rfl, hok⟩
      have hn : padding it.buf it.curPos h < 1 ∨ padding it.buf it.curPos h > h.lenBytes - 4 := by
        omega
      rw [hval] at hn
      rw [removePadding, hpad, ha.len, codec_width]
      simp only [hp, if_true, ok_bind, hn, pure_eq_ok]

/-- The `case` of SR and RR stops at the packet exactly if it passes the checks. -/
theorem visitReport_spec (ha : AtPacket it h) (fixed : Nat) (state : State) :
    (¬ ReportOk it.buf it.curPos h fixed ∧ ∃ it', it.visitReport h fixed state = .ok (.again it') ∧
      it'.buf = it.buf ∧ it'.error = true ∧ it'.curPos = it.curPos + h.lenBytes) ∨
    (ReportOk it.buf it.curPos h fixed ∧ ∃ slice, it.visitReport h fixed state =
        .ok (.leave { it with curPktSlice := slice, state }) ∧
      slice.buf = it.buf.buf ∧ slice.off = it.buf.off + reportStart it.curPos h ∧
      slice.size = h.lenBytes - padding it.buf it.curPos h) := by
  rcases removePadding_spec ha with ⟨hr, hp, hbad⟩ | ⟨slice, hr, hpad, hb, ho, hz⟩
  · refine .inl ⟨fun hok => hbad (hok.1 hp),
      { it with error := true, curPos := it.curPos + it.curPktLen }, ?_, rfl, rfl, by rw [← ha.len]⟩
    simp [visitReport, hr, skip]
  · have hlen := h.lenBytes_ge
    have hsize : 4 ≤ slice.size := by
      rw [hz]
      cases hp : h.hasPadding with
      | true => have := hpad hp; omega
      | false => simp only [padding, hp]; simpa using hlen
    have hcheck : checkBlocks { it with curPktSlice := slice } fixed =
        .ok (!(fixed + (it.buf.peek codec (reportStart it.curPos h)).counter * 24 >
          h.lenBytes - padding it.buf it.curPos h)) := by
      have hread : slice.peek codec 0 = it.buf.peek codec (reportStart it.curPos h) :=
        Slice.peek_eq_peek _ hb (by omega)
      have := Slice.read_ok (s := slice) (c := codec) (i := 0) (by simpa using hsize)
      simp [checkBlocks, this, hread, hz]
    by_cases hfit : fixed + (it.buf.peek codec (reportStart it.curPos h)).counter * 24 ≤
        h.lenBytes - padding it.buf it.curPos h
    · refine .inr ⟨⟨hpad, hfit⟩, slice, ?_, hb, ho, hz⟩
      simp [visitReport, hr, hcheck, Nat.not_lt.mpr hfit]
    · refine .inl ⟨fun hok => hfit hok.2,
        { it with curPktSlice := slice, error := true, curPos := it.curPos + it.curPktLen },
        ?_, rfl, rfl, by rw [← ha.len]⟩
      simp [visitReport, hr, hcheck, Nat.not_le.mp hfit, skip]

theorem visit_report (ha : AtPacket it h) {fixed : Nat} {state : State} (hrep : IsReport h)
    (hstop : stopState it.buf it.curPos h = if ReportOk it.buf it.curPos h fixed then some state else none) :
    ∃ r, it.visitReport h fixed state = .ok r ∧ (chain it.buf).Visit (view it.buf) it r := by
  rcases visitReport_spec ha fixed state with
    ⟨hbad, it', hv, hb, he, hp⟩ | ⟨hok, slice, hv, hb, ho, hz⟩
  · rw [if_neg hbad, ← ha.header] at hstop
    refine ⟨_, hv, .skip (chain_len ha.delimited) (chain_skip hstop) hb ?_ ?_⟩
    · rw [view_pos, view_pos, ha.header]; exact hp
    · simp [view, chain, ha.header, he, hrep]
  · rw [if_pos hok] at hstop
    refine ⟨_, hv, .stop (chain_len ha.delimited) (chain_stop _ (by rw [view_pos, ha.header]; exact hstop)) rfl ?_ rfl⟩
    simp only [view, ha.header]
    refine ⟨ha.delimited, ha.header, rfl, ha.len, hstop, hb, ?_, ?_⟩
    · rw [if_pos hrep]; exact ho
    · rw [if_pos hrep]; exact hz

theorem dispatch_spec (it : Iterator) (ha : AtPacket it h) :
    ∃ r, it.dispatch h = .ok r ∧ (chain it.buf).Visit (view it.buf) it r := by
  -- packets delimited here and checked by their own traverser
  have hleave : ∀ state, ¬ IsReport h → stopState it.buf it.curPos h = some state →
      (chain it.buf).Visit (view it.buf) it (.leave { it with state }) := by
    intro state hrep hst
    refine .stop (chain_len ha.delimited) (chain_stop _ (by rw [view_pos, ha.header]; exact hst)) rfl ?_ rfl
    simp only [view, ha.header]
    exact ⟨ha.delimited, ha.header, rfl, ha.len, hst, ha.slice_buf,
      by rw [if_neg hrep]; exact ha.slice_off, by rw [if_neg hrep]; exact ha.slice_size⟩
  unfold dispatch
  split
  · rename_i ht
    exact visit_report ha (.inl ht) (by simp only [stopState, if_pos ht]; rfl)
  · split
    · rename_i hsr ht
      exact visit_report ha (.inr ht) (by simp only [stopState, if_neg hsr, if_pos ht]; rfl)
    · rename_i hsr hrr
      have hrep : ¬ IsReport h := fun hr => hr.elim hsr hrr
      split
      · rename_i ht
        exact ⟨_, rfl, hleave _ hrep (by simp only [stopState, if_neg hsr, if_neg hrr, if_pos ht])⟩
      · split
        · rename_i hsd ht
          exact ⟨_, rfl, hleave _ hrep (by simp only [stopState, if_neg hsr, if_neg hrr, if_neg hsd, if_pos ht])⟩
        · split
          · rename_i hsd hby ht
            exact ⟨_, rfl, hleave _ hrep
              (by simp only [stopState, if_neg hsr, if_neg hrr, if_neg hsd, if_neg hby, if_pos ht])⟩
          · rename_i hsd hby hxr
            refine ⟨_, rfl, .skip (chain_len ha.delimited) (chain_skip ?_) rfl ?_ ?_⟩
            · rw [view_pos, ha.header]
              simp only [stopState, if_neg hsr, if_neg hrr, if_neg hsd, if_neg hby, if_neg hxr]
            · simp [view, ha.header, ha.len]
            · simp [view, chain, ha.header, hrep]

end

open Iterator

/-- One round of the loop never faults, and does one of the things `Chain.Visit` lists. -/
theorem visit_cases (it : Iterator) : ∃ r, it.visit = .ok r ∧ (chain it.buf).Visit (view it.buf) it r := by
  have hfinish : ∀ it' : Iterator, ¬ Delimited it.buf it.curPos → it'.buf = it.buf →
      it'.state = .end_ → it'.curPos = it.curPos →
      it'.error = (it.error || it.curPos != it.buf.size) →
      (chain it.buf).Visit (view it.buf) it (.leave it') :=
    fun it' hd hb hs hp he => .finish (chain_len_none hd) hb hs hp he
  unfold visit
  split
  · rename_i heq
    refine ⟨_, rfl, hfinish _ ?_ rfl rfl rfl (by simp [heq])⟩
    intro hd; have := hd.1; simp only [codec_width] at this; omega
  · rename_i hne
    split
    · rename_i hshort
      exact ⟨_, rfl, hfinish _ (fun hd => Nat.not_lt.mpr hd.1 hshort) rfl rfl rfl (by simp [hne])⟩
    · rename_i hhdr
      rw [Slice.read_ok (Nat.not_lt.mp hhdr)]
      simp only [ok_bind]
      split
      · rename_i hv
        exact ⟨_, rfl, hfinish _ (fun hd => hv hd.2.1) rfl rfl rfl (by simp [hne])⟩
      · rename_i hv
        split
        · rename_i hlong
          exact ⟨_, rfl, hfinish _ (fun hd => Nat.not_lt.mpr hd.2.2 hlong) rfl rfl rfl (by simp [hne])⟩
        · rename_i hfit
          have hd : Delimited it.buf it.curPos := ⟨Nat.not_lt.mp hhdr, not_not.mp hv, Nat.not_lt.mp hfit⟩
          obtain ⟨slice, hs, hb, ho, hz⟩ := Slice.subslice_ok (s := it.buf) (a := it.curPos)
            (b := it.curPos + (it.buf.peek codec it.curPos).lenBytes)
            (by omega) hd.2.2
          rw [hs]
          simp only [ok_bind]
          obtain ⟨r, hr, hvisit⟩ := dispatch_spec
            { it with curPktLen := (it.buf.peek codec it.curPos).lenBytes,
                      curPktSlice := slice }
            (h := it.buf.peek codec it.curPos)
            ⟨hd, rfl, rfl, hb, ho, by simpa using hz⟩
          exact ⟨r, hr, hvisit.of_eq rfl rfl⟩

/-! ## Whole walks -/

def walker (buf : Slice) : (chain buf).Walker Fault Iterator where
  toView := view buf
  visit := Iterator.visit
  visit_cases := by
    rintro it rfl
    exact visit_cases it

variable {it : Iterator}

theorem StoppedAt.not_end {p : Nat} {h : PacketHeader} (hs : StoppedAt it p h) :
    it.state ≠ .begin_ ∧ it.state ≠ .end_ := by
  have hst := hs.state
  unfold stopState at hst
  repeat' split at hst
  all_goals simp only [some.injEq, reduceCtorEq] at hst
  all_goals rw [← hst]; simp

theorem next_stopped {p n : Nat} (hs : (view it.buf).At it p) (hl : (chain it.buf).len p = some n) :
    ∃ it', it.next = .ok it' ∧ (walker it.buf).Arrives (p + n) it.error it' := by
  obtain ⟨hd, rfl⟩ := delimited_of_len hl
  have hnext : it.next = Loop.repeatUntil visit .outOfFuel (it.buf.size + 1)
      { it with curPos := it.curPos + it.curPktLen } := by
    obtain ⟨hb, he⟩ := hs.not_end
    unfold next
    split
    · contradiction
    · contradiction
    · rfl
  have hloop := (walker it.buf).loop_spec .outOfFuel (s := { it with curPos := it.curPos + it.curPktLen }) rfl
    (by simpa [walker, view, hs.pos, hs.len] using hd.2.2)
  rw [hnext]
  simpa [walker, view, hs.pos, hs.len] using hloop

theorem next_iter (buf : Slice) : ∃ it', (iter buf).next = .ok it' ∧ (walker buf).Arrives 0 false it' :=
  (walker buf).loop_spec .outOfFuel (s := iter buf) rfl (Nat.zero_le _)

/-- `while (next() != END)` over the whole buffer: the stops, and the iterator at the end. -/
def traverse (buf : Slice) : Except Fault (List Iterator × Iterator) :=
  Loop.collect Iterator.next (fun it => it.state == .end_) .outOfFuel (buf.size + 1) (iter buf)

/-- The traversal of any buffer ends without a fault and stops exactly at the sub-packets that are
well formed, in order. -/
theorem traverse_spec (buf : Slice) : ∃ l last, traverse buf = .ok (l, last) ∧ (walker buf).Walked 0 false l last := by
  refine (walker buf).collect_spec ?_ ?_ ?_ _ _ 0 false (next_iter buf) (Nat.zero_le _) (Nat.lt_succ_self _)
  · rintro it p n rfl hat hl
    exact next_stopped hat hl
  · intro it hend
    exact beq_iff_eq.mpr hend
  · intro it p hat
    simpa using hat.not_end.2

/-! ## Getters -/

section
variable {it : Iterator} {p : Nat} {h : PacketHeader} {state : State} {fixed : Nat}

theorem stopState_cases {buf : Slice} (hs : stopState buf p h = some state) :
    (state = .sr ∧ h.type = RTCP_SR ∧ ReportOk buf p h 28) ∨
    (state = .rr ∧ h.type = RTCP_RR ∧ ReportOk buf p h 8) ∨
    ((state = .sdes ∨ state = .bye ∨ state = .xr) ∧ ¬ IsReport h) := by
  unfold stopState at hs
  split at hs
  · rename_i ht
    split at hs
    · rename_i hok
      exact .inl ⟨(some.inj hs).symm, ht, hok⟩
    · cases hs
  · rename_i hsr
    split at hs
    · rename_i ht
      split at hs
      · rename_i hok
        exact .inr (.inl ⟨(some.inj hs).symm, ht, hok⟩)
      · cases hs
    · rename_i hrr
      refine .inr (.inr ⟨?_, fun hr => hr.elim hsr hrr⟩)
      split at hs
      · exact .inl (some.inj hs).symm
      · split at hs
        · exact .inr (.inl (some.inj hs).symm)
        · split at hs
          · exact .inr (.inr (some.inj hs).symm)
          · cases hs

theorem StoppedAt.report_fits (hs : StoppedAt it p h) (hok : ReportOk it.buf p h fixed) (hr : IsReport h) :
    fixed + (it.curPktSlice.peek codec 0).counter * 24 ≤ it.curPktSlice.size := by
  have hpeek : it.curPktSlice.peek codec 0 = it.buf.peek codec (reportStart p h) := by
    refine Slice.peek_eq_peek _ hs.slice_buf ?_
    rw [hs.slice_off, if_pos hr]
    rfl
  rw [hpeek, hs.slice_size, if_pos hr]
  exact hok.2

theorem getBlockByIndex_ok {i : Nat} (pktType : String) (h4 : 4 ≤ fixed)
    (hfit : fixed + (it.curPktSlice.peek codec 0).counter * 24 ≤ it.curPktSlice.size)
    (hi : i < (it.curPktSlice.peek codec 0).counter) :
    it.getBlockByIndex fixed i pktType = .ok (it.curPktSlice.peek ReceptionReportBlock.codec (fixed + i * 24)) := by
  unfold getBlockByIndex
  rw [Slice.read_ok (by rw [codec_width]; omega)]
  simp only [ok_bind, if_neg (Nat.not_le.mpr hi), ReceptionReportBlock.codec_width]
  exact Slice.read_ok (by rw [ReceptionReportBlock.codec_width]; omega)

theorem getSr_ok (hs : StoppedAt it p h) (hst : it.state = .sr) :
    it.getSr = .ok (it.curPktSlice.peek SenderReportPacket.codec 0) ∧
    ∀ i < (it.curPktSlice.peek codec 0).counter, it.getSrBlock i =
      .ok (it.curPktSlice.peek ReceptionReportBlock.codec (28 + i * 24)) := by
  rcases stopState_cases hs.state with ⟨-, ht, hok⟩ | ⟨hrr, -⟩ | ⟨hrest, -⟩
  · have hfit := hs.report_fits hok (.inl ht)
    have hget : it.getSr = .ok (it.curPktSlice.peek SenderReportPacket.codec 0) := by
      rw [getSr, if_neg (not_not.mpr hst)]
      exact Slice.read_ok (by rw [SenderReportPacket.codec_width]; omega)
    refine ⟨hget, fun i hi => ?_⟩
    rw [getSrBlock, hget]
    exact getBlockByIndex_ok _ (by simp) hfit hi
  · rw [hst] at hrr; cases hrr
  · rw [hst] at hrest; simp at hrest

theorem getRr_ok (hs : StoppedAt it p h) (hst : it.state = .rr) :
    it.getRr = .ok (it.curPktSlice.peek ReceiverReportPacket.codec 0) ∧
    ∀ i < (it.curPktSlice.peek codec 0).counter, it.getRrBlock i =
      .ok (it.curPktSlice.peek ReceptionReportBlock.codec (8 + i * 24)) := by
  rcases stopState_cases hs.state with ⟨hsr, -⟩ | ⟨-, ht, hok⟩ | ⟨hrest, -⟩
  · rw [hst] at hsr; cases hsr
  · have hfit := hs.report_fits hok (.inr ht)
    have hget : it.getRr = .ok (it.curPktSlice.peek ReceiverReportPacket.codec 0) := by
      rw [getRr, if_neg (not_not.mpr hst)]
      exact Slice.read_ok (by rw [ReceiverReportPacket.codec_width]; omega)
    refine ⟨hget, fun i hi => ?_⟩
    rw [getRrBlock, hget]
    exact getBlockByIndex_ok _ (by simp) hfit hi
  · rw [hst] at hrest; simp at hrest

theorem getSlice_ok (hst : it.state = state) : it.getSlice state = .ok it.curPktSlice := by
  rw [getSlice, if_neg (not_not.mpr hst)]

end

end Roc.Rtcp.Traverser
