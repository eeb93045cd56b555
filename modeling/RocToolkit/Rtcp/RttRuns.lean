import RocToolkit.Rtcp.Rtt

/-!
# RocToolkit.Rtcp.RttRuns

Runs of a sender and a receiver. If delays and intervals are short and no party that has sent a report of its
own reads an empty LSR or LRR field, every round-trip time that is stored is the right one; without that, one
can be made up from a field that says that there was no report.
-/

namespace Roc.Rtcp.Exchange

open List

open Packet Reporter ReceiverView

variable {π : Type} {P : Participant π} {clocks : Clocks} {w w' : Exchange π} {e : Event π}

/-- Times from 1970 to 2104, delays and intervals between reports of at most `2^15 - 1` s. -/
def Timed (clocks : Clocks) (w : Exchange π) : Event π → Prop
  | .senderReports _ => InRange (w.now + clocks.sender)
  | .receiverReports _ => InRange (w.now + clocks.receiver)
  | .senderHears _ => ∀ p ∈ w.backward.head?, w.now - p.time ≤ 32767000000000 ∧
      (w.sender.currentSr ≠ 0 → w.now - w.lastSr ≤ 32767000000000)
  | .receiverHears _ => ∀ p ∈ w.forward.head?, w.now - p.time ≤ 32767000000000 ∧
      (w.receiver.currentRr ≠ 0 → w.now - w.lastRr ≤ 32767000000000)
  | _ => True

/-- A party that has sent a report gets a reply to one: the blocks about it have a time in them, and once the
sender has read a block about it, every packet has one. -/
def Present (P : Participant π) (w : Exchange π) : Event π → Prop
  | .senderHears _ => ∀ p ∈ w.backward.head?,
      (w.sender.currentSr ≠ 0 → ∀ blk ∈ p.packet.blocks, blk.ssrc = w.sender.localSourceId → blk.lastSr ≠ 0) ∧
      ∀ stream ∈ w.sender.streams.find p.packet.rr.ssrc, stream.lastLocalSr ≠ 0 →
        P.hasSendStream w.sender.participant = true ∧
          ∃ blk ∈ p.packet.blocks, blk.ssrc = w.sender.localSourceId
  | .receiverHears _ => ∀ p ∈ w.forward.head?,
      w.receiver.currentRr ≠ 0 → ∀ blk ∈ p.packet.dlrr, blk.ssrc = w.receiver.localSourceId → blk.lastRr ≠ 0
  | _ => True

instance (x : Int) : Decidable (InRange x) := inferInstanceAs (Decidable (_ ∧ _))

instance (w : Exchange π) : (e : Event π) → Decidable (w.Timed clocks e)
  | .senderReports _ => inferInstanceAs (Decidable (InRange _))
  | .receiverReports _ => inferInstanceAs (Decidable (InRange _))
  | .senderHears _ => inferInstanceAs (Decidable (∀ p ∈ w.backward.head?, _))
  | .receiverHears _ => inferInstanceAs (Decidable (∀ p ∈ w.forward.head?, _))
  | .wait _ | .senderChanges _ | .receiverChanges _ | .forwardLoses | .backwardLoses =>
    inferInstanceAs (Decidable True)

instance (w : Exchange π) : (e : Event π) → Decidable (w.Present P e)
  | .senderHears _ => inferInstanceAs (Decidable (∀ p ∈ w.backward.head?, _ ∧ ∀ stream ∈ _, _))
  | .receiverHears _ => inferInstanceAs (Decidable (∀ p ∈ w.forward.head?, _))
  | .senderReports _ | .receiverReports _ | .wait _ | .senderChanges _ | .receiverChanges _ | .forwardLoses
  | .backwardLoses => inferInstanceAs (Decidable True)

/-! ## Invariant -/

structure GenuineForward (clocks : Clocks) (back : List Delivery) (p : Sent SenderPacket) : Prop where
  ssrc : p.packet.xr.ssrc = p.packet.sr.ssrc
  sr : ∃ stamp, Stamp clocks.sender p.time stamp ∧ 0 ≤ stamp ∧ unix2Ntp stamp = .ok p.packet.sr.ntpTimestamp
  dlrr : ∀ blk ∈ p.packet.dlrr, blk.lastRr ≠ 0 →
    Echoes back clocks.receiver clocks.sender p.time blk.lastRr blk.delayLastRr

structure GenuineBackward (clocks : Clocks) (out : List Delivery) (p : Sent ReceiverPacket) : Prop where
  ssrc : p.packet.xr.ssrc = p.packet.rr.ssrc
  rrtr : ∃ stamp, Stamp clocks.receiver p.time stamp ∧ 0 ≤ stamp ∧
    unix2Ntp stamp = .ok p.packet.rrtr.ntpTimestamp
  blocks : ∀ blk ∈ p.packet.blocks, blk.lastSr ≠ 0 →
    Echoes out clocks.sender clocks.receiver p.time blk.lastSr blk.delayLastSr

/-- `current` is the report time of the last report, made at `last`. -/
def Current (offset last current : Int) : Prop :=
  current ≠ 0 → Stamp offset last current ∧ 0 < current ∧ current < 4233462144000000000

structure Inv (clocks : Clocks) (w : Exchange π) : Prop where
  sender : w.sender.Remotes fun _ => SenderView clocks w.out w.back w.sender.currentSr
  receiver : w.receiver.Remotes fun _ => ReceiverView clocks w.out w.back w.receiver.currentRr
  sr : Current clocks.sender w.lastSr w.sender.currentSr
  rr : Current clocks.receiver w.lastRr w.receiver.currentRr
  out : ∀ d ∈ w.out, d.Timely w.now ∧ d.sent ≤ w.lastSr
  back : ∀ d ∈ w.back, d.Timely w.now ∧ d.sent ≤ w.lastRr
  forward : ∀ p ∈ w.forward, GenuineForward clocks w.back p ∧ p.time ≤ w.now ∧ p.time ≤ w.lastSr
  backward : ∀ p ∈ w.backward, GenuineBackward clocks w.out p ∧ p.time ≤ w.now ∧ p.time ≤ w.lastRr

theorem Current.hearing {own time now sent current reply : Int} {out back : List Delivery} (h : Current own sent current)
    (hrecent : current ≠ 0 → now - sent ≤ 32767000000000) (hlog : ∀ d ∈ out, d.Timely now ∧ d.sent ≤ sent)
    (htimely : (⟨time, now⟩ : Delivery).Timely now) (hstamp : Stamp own now reply) :
    Hearing own out (⟨time, now⟩ :: back) time now sent current reply := by
  refine ⟨hstamp, fun hc => ?_, hlog, mem_cons_self, htimely⟩
  obtain ⟨hsent, hlow, hhigh⟩ := h hc
  exact ⟨hsent, hlow, hhigh, hrecent hc⟩

theorem GenuineForward.mono {back back' : List Delivery} {p : Sent SenderPacket}
    (h : GenuineForward clocks back p) (hsub : back ⊆ back') : GenuineForward clocks back' p :=
  ⟨h.ssrc, h.sr, fun blk hb hne => (h.dlrr blk hb hne).mono hsub⟩

theorem GenuineBackward.mono {out out' : List Delivery} {p : Sent ReceiverPacket}
    (h : GenuineBackward clocks out p) (hsub : out ⊆ out') : GenuineBackward clocks out' p :=
  ⟨h.ssrc, h.rrtr, fun blk hb hne => (h.blocks blk hb hne).mono hsub⟩

theorem subset_ite (b : Bool) (d : Delivery) (l : List Delivery) : l ⊆ (if b then d :: l else l) := by
  cases b
  · exact fun _ h => h
  · exact subset_cons_self d l

theorem mem_ite {b : Bool} {d x : Delivery} {l : List Delivery} (h : x ∈ (if b then d :: l else l)) :
    x = d ∨ x ∈ l := by
  cases b
  · exact .inr h
  · exact mem_cons.mp h

/-! ## Steps -/

theorem Inv.wait (h : Inv clocks w) (time : Nat) : Inv clocks { w with now := w.now + time } := by
  refine ⟨h.sender, h.receiver, h.sr, h.rr, fun d hd => ?_, fun d hd => ?_, fun p hp => ?_, fun p hp => ?_⟩
  · exact ⟨(h.out d hd).1.later (by dsimp only; omega), (h.out d hd).2⟩
  · exact ⟨(h.back d hd).1.later (by dsimp only; omega), (h.back d hd).2⟩
  · have := (h.forward p hp).2
    exact ⟨(h.forward p hp).1, by dsimp only; omega, this.2⟩
  · have := (h.backward p hp).2
    exact ⟨(h.backward p hp).1, by dsimp only; omega, this.2⟩

theorem stamp_nextReportTime (s : Reporter π) (now offset : Int) :
    Stamp offset now (s.nextReportTime (now + offset)) := nextReportTime_near s (now + offset)

theorem current_of_stamp {offset now stamp : Int} (h : Stamp offset now stamp) (ht : InRange (now + offset)) :
    Stamp offset now stamp ∧ 0 < stamp ∧ stamp < 4233462144000000000 := by
  obtain ⟨h1, h2⟩ := ht
  refine ⟨h, ?_⟩
  rcases h with hst | hst <;> rw [hst] <;> omega

section
variable (h : Inv clocks w)
include h

variable {targets : List (Nat × Nat)} {addr : SocketAddr}

theorem Inv.senderReports (ht : InRange (w.now + clocks.sender))
    (hs : w.step P clocks (.senderReports targets) = .ok w') : Inv clocks w' := by
  obtain ⟨⟨packet, s⟩, hr, hs⟩ := bind_eq_ok.mp hs
  rcases reportAsSender_cases hr with ⟨rfl, code, hb⟩ | ⟨p, s1, code, rfl, hb, hssrc, hntp, hdlrr, he⟩
  · cases hs
    have hcur : s.currentSr = w.sender.currentSr := congrArg Prod.fst (sentTimes_beginReport hb)
    refine ⟨?_, h.receiver, ?_, h.rr, h.out, h.back, h.forward, h.backward⟩
    · dsimp only
      rw [hcur]
      exact h.sender.beginReport (SenderView.settled _) hb
    · dsimp only
      rw [hcur]
      exact h.sr
  · cases hs
    obtain ⟨_, htime, htimes, _, _⟩ := beginReport_ok hb
    have hstamp : Stamp clocks.sender w.now s1.reportTime := htime ▸ stamp_nextReportTime _ _ _
    have hrange := current_of_stamp hstamp ht
    have hcur : s.currentSr = s1.reportTime := congrArg Prod.fst (sentTimes_endGeneration he)
    have hview := h.sender.beginReport (SenderView.settled _) hb
    have hview1 : Remotes (fun _ => SenderView clocks w.out w.back s1.reportTime)
        { s1 with currentSr := s1.reportTime } :=
      fun k stream hk => (hview k stream hk).mono (fun _ hd => hd) (fun _ hd => hd) fun hc => by omega
    refine ⟨?_, h.receiver, ?_, h.rr, fun d hd => ?_, h.back, fun q hq => ?_, h.backward⟩
    · dsimp only
      rw [hcur]
      exact hview1.endGeneration (SenderView.settled _) he
    · dsimp only
      rw [hcur]
      exact fun _ => hrange
    · have hd := (h.out d hd).1
      exact ⟨hd, hd.order.trans hd.past⟩
    · rcases mem_append.mp hq with hq | hq
      · have hq := h.forward q hq
        exact ⟨hq.1, hq.2.1, hq.2.1⟩
      · obtain rfl := mem_singleton.mp hq
        refine ⟨⟨hssrc, ⟨s1.reportTime, hstamp, by omega, hntp⟩, fun blk hblk hne => ?_⟩, Int.le_refl _, Int.le_refl _⟩
        obtain ⟨k, stream, hk, hrep⟩ := hdlrr blk hblk
        exact hrep.echoes (hview k stream hk).heard (fun d hd => (h.back d hd).1) hstamp hrange.2.2 hne

theorem Inv.receiverReports (ht : InRange (w.now + clocks.receiver))
    (hs : w.step P clocks (.receiverReports targets) = .ok w') : Inv clocks w' := by
  obtain ⟨⟨packet, s⟩, hr, hs⟩ := bind_eq_ok.mp hs
  rcases reportAsReceiver_cases hr with ⟨rfl, code, hb⟩ |
    ⟨p, s1, s2, code, rfl, hb, hssrc, hntp, hblocks, htimes2, hkeep, he⟩
  · cases hs
    have hcur : s.currentRr = w.receiver.currentRr := congrArg Prod.snd (sentTimes_beginReport hb)
    refine ⟨h.sender, ?_, h.sr, ?_, h.out, h.back, h.forward, h.backward⟩
    · dsimp only
      rw [hcur]
      exact h.receiver.beginReport (settled _) hb
    · dsimp only
      rw [hcur]
      exact h.rr
  · cases hs
    obtain ⟨_, htime, htimes, _, _⟩ := beginReport_ok hb
    have hstamp : Stamp clocks.receiver w.now s1.reportTime := htime ▸ stamp_nextReportTime _ _ _
    have hrange := current_of_stamp hstamp ht
    have hcur : s.currentRr = s1.reportTime := by
      have := sentTimes_endGeneration he
      rw [htimes2] at this
      exact congrArg Prod.snd this
    have hview := h.receiver.beginReport (settled _) hb
    have hview1 : s1.Remotes fun _ => ReceiverView clocks w.out w.back s1.reportTime :=
      fun k stream hk => (hview k stream hk).mono (fun _ hd => hd) (fun _ hd => hd) fun hc => by omega
    refine ⟨h.sender, ?_, h.sr, ?_, h.out, fun d hd => ?_, h.forward, fun q hq => ?_⟩
    · dsimp only
      rw [hcur]
      exact (hkeep _ hview1).endGeneration (settled _) he
    · dsimp only
      rw [hcur]
      exact fun _ => hrange
    · have hd := (h.back d hd).1
      exact ⟨hd, hd.order.trans hd.past⟩
    · rcases mem_append.mp hq with hq | hq
      · have hq := h.backward q hq
        exact ⟨hq.1, hq.2.1, hq.2.1⟩
      · obtain rfl := mem_singleton.mp hq
        refine ⟨⟨hssrc, ⟨s1.reportTime, hstamp, by omega, hntp⟩, fun blk hblk hne => ?_⟩, Int.le_refl _, Int.le_refl _⟩
        obtain ⟨k, stream, hk, hrep⟩ := hblocks blk hblk
        exact hrep.echoes (hview k stream hk).heard (fun d hd => (h.out d hd).1) hstamp hrange.2.2 hne

theorem Inv.senderHears (ht : w.Timed clocks (.senderHears addr))
    (hp : w.Present P (.senderHears addr)) (hs : w.step P clocks (.senderHears addr) = .ok w') : Inv clocks w' := by
  obtain ⟨now, sender, receiver, forward, backward, out, back, lastSr, lastRr⟩ := w
  cases backward with
  | nil =>
    cases hs
    exact h
  | cons p rest =>
    obtain ⟨⟨heard, s⟩, hr, hs⟩ := bind_eq_ok.mp hs
    cases hs
    obtain ⟨hdelay, hrecent⟩ := ht p rfl
    obtain ⟨hlsr, htodo⟩ := hp p rfl
    obtain ⟨hgen, hnow, hlast⟩ := h.backward p mem_cons_self
    have htimely : (⟨p.time, now⟩ : Delivery).Timely now := ⟨hnow, Int.le_refl _, hdelay⟩
    have hcur : s.currentSr = sender.currentSr := congrArg Prod.fst (sentTimes_hear hr)
    have hview := SenderView.hear h.sender (fun _ => h.sr.hearing hrecent h.out htimely) hgen.ssrc
      (fun blk hb hid hc => hgen.blocks blk hb (hlsr hc blk hb hid)) hgen.rrtr htodo hr
    have hsub := subset_ite heard ⟨p.time, now⟩ back
    refine ⟨?_, ?_, ?_, h.rr, h.out, fun d hd => ?_, fun q hq => ?_, (forall_mem_cons.mp h.backward).2⟩
    · dsimp only
      rw [hcur]
      exact hview
    · exact h.receiver.mono fun _ _ hv => hv.mono (fun _ hd => hd) hsub id
    · dsimp only
      rw [hcur]
      exact h.sr
    · rcases mem_ite hd with rfl | hd
      · exact ⟨htimely, hlast⟩
      · exact h.back d hd
    · exact ⟨(h.forward q hq).1.mono hsub, (h.forward q hq).2⟩

theorem Inv.receiverHears (ht : w.Timed clocks (.receiverHears addr))
    (hp : w.Present P (.receiverHears addr)) (hs : w.step P clocks (.receiverHears addr) = .ok w') : Inv clocks w' := by
  obtain ⟨now, sender, receiver, forward, backward, out, back, lastSr, lastRr⟩ := w
  cases forward with
  | nil =>
    cases hs
    exact h
  | cons p rest =>
    obtain ⟨⟨heard, s⟩, hr, hs⟩ := bind_eq_ok.mp hs
    cases hs
    obtain ⟨hdelay, hrecent⟩ := ht p rfl
    obtain ⟨hgen, hnow, hlast⟩ := h.forward p mem_cons_self
    have htimely : (⟨p.time, now⟩ : Delivery).Timely now := ⟨hnow, Int.le_refl _, hdelay⟩
    have hcur : s.currentRr = receiver.currentRr := congrArg Prod.snd (sentTimes_hear hr)
    have hview := ReceiverView.hear h.receiver (fun _ => h.rr.hearing hrecent h.back htimely) hgen.ssrc
      (fun blk hb hid hc => hgen.dlrr blk hb (hp p rfl hc blk hb hid)) hgen.sr hr
    have hsub := subset_ite heard ⟨p.time, now⟩ out
    refine ⟨?_, ?_, h.sr, ?_, fun d hd => ?_, h.back, (forall_mem_cons.mp h.forward).2, fun q hq => ?_⟩
    · exact h.sender.mono fun _ _ hv => hv.mono hsub (fun _ hd => hd) id
    · dsimp only
      rw [hcur]
      exact hview
    · dsimp only
      rw [hcur]
      exact h.rr
    · rcases mem_ite hd with rfl | hd
      · exact ⟨htimely, hlast⟩
      · exact h.out d hd
    · exact ⟨(h.backward q hq).1.mono hsub, (h.backward q hq).2⟩

theorem Inv.step (ht : w.Timed clocks e) (hp : w.Present P e) (hs : Step P clocks w e w') : Inv clocks w' := by
  cases e with
  | wait time =>
    cases hs
    exact h.wait time
  | senderChanges participant | receiverChanges participant =>
    cases hs
    exact ⟨h.sender, h.receiver, h.sr, h.rr, h.out, h.back, h.forward, h.backward⟩
  | senderReports targets => exact h.senderReports ht hs
  | receiverReports targets => exact h.receiverReports ht hs
  | senderHears addr => exact h.senderHears ht hp hs
  | receiverHears addr => exact h.receiverHears ht hp hs
  | forwardLoses =>
    cases hs
    exact ⟨h.sender, h.receiver, h.sr, h.rr, h.out, h.back, fun p hp => h.forward p (mem_of_mem_tail hp), h.backward⟩
  | backwardLoses =>
    cases hs
    exact ⟨h.sender, h.receiver, h.sr, h.rr, h.out, h.back, h.forward, fun p hp => h.backward p (mem_of_mem_tail hp)⟩

end

theorem initial_times {s : Reporter π} (h : Reporter.Initial P s) : s.streams = .empty ∧ s.sentTimes = (0, 0) := by
  obtain ⟨config, participant, arena, hn⟩ := h
  unfold Reporter.new at hn
  dsimp only at hn
  split at hn
  · cases hn
  · split at hn
    · cases hn
    · split at hn
      · cases hn
        exact ⟨rfl, rfl⟩
      · cases hn

theorem Inv.initial (h : Initial P w) : Inv clocks w := by
  obtain ⟨hsender, hreceiver, hforward, hbackward, hout, hback⟩ := h
  obtain ⟨hstreams, htimes⟩ := initial_times hsender
  obtain ⟨hstreams', htimes'⟩ := initial_times hreceiver
  refine ⟨?_, ?_, ?_, ?_, ?_, ?_, ?_, ?_⟩
  · intro k stream hk
    rw [hstreams] at hk
    cases hk
  · intro k stream hk
    rw [hstreams'] at hk
    cases hk
  · exact fun hc => absurd (congrArg Prod.fst htimes) hc
  · exact fun hc => absurd (congrArg Prod.snd htimes') hc
  · rw [hout]
    exact fun _ hd => by cases hd
  · rw [hback]
    exact fun _ hd => by cases hd
  · rw [hforward]
    exact fun _ hd => by cases hd
  · rw [hbackward]
    exact fun _ hd => by cases hd

def RttReal (w : Exchange π) : Prop :=
  (∀ k stream, w.sender.streams.find k = some stream → stream.remoteRecvRtt.hasMetrics = true →
    Accurate w.out w.back stream.remoteRecvRtt.metrics.rtt) ∧
  ∀ k stream, w.receiver.streams.find k = some stream → stream.remoteSendRtt.hasMetrics = true →
    Accurate w.back w.out stream.remoteSendRtt.metrics.rtt

/-- If no party reads an empty time field after it has sent a report, and replies are about the party that
reads them, then in every state of the run the round-trip times are those of reports that were sent and
received before the reply. -/
theorem rttReal_of_reaches
    (h : Reaches (Initial P) (Step P clocks) (fun w e => w.Timed clocks e ∧ w.Present P e) w) : w.RttReal := by
  have hinv : Inv clocks w := h.invariant (fun _ => Inv.initial) fun _ _ _ hinv hok hs => hinv.step hok.1 hok.2 hs
  exact ⟨fun k stream hk => (hinv.sender k stream hk).good.2, fun k stream hk => (hinv.receiver k stream hk).good.2⟩

/-! ## Runs to look at -/

def follow (P : Participant π) (clocks : Clocks) (allowed : Exchange π → Event π → Bool) :
    List (Event π) → Exchange π → Option (Exchange π)
  | [], w => some w
  | e :: events, w =>
    if allowed w e then (w.step P clocks e).toOption.bind (follow P clocks allowed events) else none

theorem reaches_follow {allowed : Exchange π → Event π → Bool} {A : Exchange π → Event π → Prop}
    (hA : ∀ w e, allowed w e = true → A w e) {events : List (Event π)} : ∀ {w w' : Exchange π},
      Reaches (Initial P) (Step P clocks) A w → follow P clocks allowed events w = some w' →
      Reaches (Initial P) (Step P clocks) A w' := by
  induction events with
  | nil =>
    intro w w' h hf
    cases hf
    exact h
  | cons e events ih =>
    intro w w' h hf
    unfold follow at hf
    split at hf
    · rename_i hok
      obtain ⟨w1, hs, hf⟩ := Option.bind_eq_some_iff.mp hf
      exact ih (.step h (hA w e hok) (toOption_eq_some hs)) hf
    · cases hf

/-- A sender and a receiver of its stream that have just been made, 10000 s after a multiple of `2^16` s. -/
def fresh : Option (Exchange Peer) := do
  let sender ← Reporter.new Peer.participant {}
    { info := { cname := some (.ofBuffer [115]), sourceId := 10, reportAddress := .ipv4 0x7F000001 5001 }
      sends := true, receives := [] } []
  let receiver ← Reporter.new Peer.participant {} (receiverOf [10]) []
  return { now := 1600039056000000000, sender, receiver }

def offsets : Clocks := ⟨0, 5000000000⟩

theorem fresh_initial {w : Exchange Peer} (h : fresh = some w) : Initial Peer.participant w := by
  unfold fresh at h
  obtain ⟨s, hs, h⟩ := Option.bind_eq_some_iff.mp h
  obtain ⟨r, hr, h⟩ := Option.bind_eq_some_iff.mp h
  cases h
  exact ⟨⟨_, _, _, hs⟩, ⟨_, _, _, hr⟩, rfl, rfl, rfl, rfl⟩

/-- An SR on the way for 1 ms, its reply after 20 ms, 2 ms on the way. -/
theorem rttReal_of_reaches_reply : ∃ w : Exchange Peer, w.RttReal ∧
    ∃ stream, w.sender.streams.find 1 = some stream ∧ stream.remoteRecvRtt.hasMetrics = true ∧
      stream.remoteRecvRtt.metrics.rtt = 2995728 := by
  have hrun : (fresh.any fun w₀ => (follow Peer.participant offsets
      (fun w e => decide (w.Timed offsets e ∧ w.Present Peer.participant e))
      [.senderReports [], .wait 1000000, .receiverHears (.ipv4 0x7F000001 5001), .wait 20000000,
        .receiverReports [(0, 0)], .wait 2000000, .senderHears (.ipv4 0x7F000001 5000)] w₀).any fun w =>
      (w.sender.streams.find 1).any fun stream => decide (stream.remoteRecvRtt.hasMetrics = true ∧
        stream.remoteRecvRtt.metrics.rtt = 2995728)) = true := by
    decide +kernel
  obtain ⟨w₀, hw₀, hrun⟩ := (Option.any_eq_true _ _).mp hrun
  obtain ⟨w, hw, hrun⟩ := (Option.any_eq_true _ _).mp hrun
  obtain ⟨stream, hst, hrtt⟩ := (Option.any_eq_true _ _).mp hrun
  have hreach := reaches_follow (A := fun w e => w.Timed offsets e ∧ w.Present Peer.participant e)
    (fun _ _ => of_decide_eq_true) (.start (fresh_initial hw₀)) hw
  exact ⟨w, rttReal_of_reaches hreach, stream, hst, of_decide_eq_true hrtt⟩

/-- The SR is lost. The receiver reports all the same, with an LSR of zero, and the sender takes the last
multiple of `2^16` s for the time of an SR: a round-trip time of 10000 s. -/
theorem lostSr_made_up : ∃ w : Exchange Peer,
    Reaches (Initial Peer.participant) (Step Peer.participant offsets) (fun w e => w.Timed offsets e) w ∧
      ¬ w.RttReal ∧ w.out = [] ∧ ∃ stream, w.sender.streams.find 1 = some stream ∧
        stream.remoteRecvRtt.hasMetrics = true ∧ stream.remoteRecvRtt.metrics.rtt = 10000022000000 := by
  have hrun : (fresh.any fun w₀ => (follow Peer.participant offsets (fun w e => decide (w.Timed offsets e))
      [.senderReports [], .forwardLoses, .wait 20000000, .receiverReports [(0, 0)], .wait 2000000,
        .senderHears (.ipv4 0x7F000001 5000)] w₀).any fun w => w.out.isEmpty &&
      (w.sender.streams.find 1).any fun stream => decide (stream.remoteRecvRtt.hasMetrics = true ∧
        stream.remoteRecvRtt.metrics.rtt = 10000022000000)) = true := by
    decide +kernel
  obtain ⟨w₀, hw₀, hrun⟩ := (Option.any_eq_true _ _).mp hrun
  obtain ⟨w, hw, hrun⟩ := (Option.any_eq_true _ _).mp hrun
  obtain ⟨hout, hrun⟩ := Bool.and_eq_true_iff.mp hrun
  obtain ⟨stream, hst, hrtt⟩ := (Option.any_eq_true _ _).mp hrun
  have hout : w.out = [] := List.isEmpty_iff.mp hout
  have hreach := reaches_follow (A := fun w e => w.Timed offsets e)
    (fun _ _ => of_decide_eq_true) (.start (fresh_initial hw₀)) hw
  have hrtt := of_decide_eq_true hrtt
  refine ⟨w, hreach, fun hreal => ?_, hout, stream, hst, hrtt⟩
  obtain ⟨d, hd, _⟩ := hreal.1 1 stream hst hrtt.1
  rw [hout] at hd
  cases hd

end Roc.Rtcp.Exchange
