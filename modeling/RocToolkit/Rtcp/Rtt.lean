import Mathlib.Algebra.Order.Group.Int
import Mathlib.Algebra.Order.Group.Abs
import RocToolkit.Rtcp.Exchange
import RocToolkit.Rtcp.Freshness
import RocToolkit.Rtcp.NtpTicks

/-!
# RocToolkit.Rtcp.Rtt

When the round-trip time of a stream is the time that a report and its reply were really on the way. Both
directions work the same: a party sends a report with its time (SR, RRTR), the other one remembers the time
and when it came (`Heard`), and returns both in the middle 32 bits of a timestamp and a rounded delay
(`Echoes`). The first party restores the time from its own clock (`Restored`).

A zero in the field for the time means that there was no report yet, and this is not looked at: `Sound` rules
out that such a field is read by a party that has sent a report.
-/

namespace Roc.Rtcp

open List

open Packet Reporter Reporter.Remotes Except

/-- `x` is the report time of a call at the true time `t`: `begin_*` may add one. -/
def Stamp (offset t x : Int) : Prop := x = t + offset ∨ x = t + offset + 1

def InRange (x : Int) : Prop := 0 < x ∧ x < 4233462143000000000

/-- A delivery with a delay below `2^15 - 1` s. -/
structure Delivery.Timely (d : Delivery) (now : Int) : Prop where
  order : d.sent ≤ d.arrived
  past : d.arrived ≤ now
  delay : d.arrived - d.sent ≤ 32767000000000

theorem Delivery.Timely.later {d : Delivery} {now now' : Int} (h : d.Timely now) (hle : now ≤ now') : d.Timely now' :=
  ⟨h.order, h.past.trans hle, h.delay⟩

/-- A party with offset `own` remembers a report of its peer. -/
def Heard (log : List Delivery) (peer own last : Int) (ntp : UInt64) : Prop :=
  ∃ d ∈ log, ∃ stamp, Stamp peer d.sent stamp ∧ 0 ≤ stamp ∧ unix2Ntp stamp = .ok ntp ∧
    Stamp own d.arrived last

/-- The reply at the true time `time` of a party that remembers a report. -/
structure Echo (peer own time : Int) (mid delay : UInt32) (d : Delivery) (stamp last reply : Int)
    (x held : UInt64) : Prop where
  before : d.arrived ≤ time
  stamp_sent : Stamp peer d.sent stamp
  stamp_pos : 0 ≤ stamp
  ntp_stamp : unix2Ntp stamp = .ok x
  mid_ntp : mid = ntp32SetValue x
  last_arrived : Stamp own d.arrived last
  reply_time : Stamp own time reply
  reply_range : reply < 4233462144000000000
  order : 0 < last ∧ last ≤ reply
  held_ntp : nanoseconds2Ntp (reply - last) = .ok held
  delay_held : delay = ntp32SetValue (ntpClamp32 held maxDelay)

def Echoes (log : List Delivery) (peer own time : Int) (mid delay : UInt32) : Prop :=
  ∃ d ∈ log, ∃ stamp last reply x held, Echo peer own time mid delay d stamp last reply x held

/-- What a party makes of an echo: the time of its report, from its own last report time `current`, and the
delay. -/
def Restored (log : List Delivery) (own peer time current : Int) (report delay : Int) : Prop :=
  ∃ mid held, Echoes log own peer time mid held ∧ ∃ base y, unix2Ntp current = .ok base ∧
    ntpExtend base (ntp32Value mid) = .ok y ∧ report = ntp2Unix y ∧
    delay = ntp2Nanoseconds (ntp32Value held)

/-- The round-trip time is the sum of the delays of a report and a reply that was sent after the report had
come, up to `2/65536` s and 4 ns. -/
def Accurate (out back : List Delivery) (rtt : Int) : Prop :=
  ∃ d ∈ out, ∃ e ∈ back, d.sent ≤ d.arrived ∧ d.arrived ≤ e.sent ∧ e.sent ≤ e.arrived ∧
    65536 * |rtt - ((d.arrived - d.sent) + (e.arrived - e.sent))| ≤ 2 * 1000000000 + 4 * 65536

section
variable {out out' back back' : List Delivery} {own peer time current report delay reply now sent : Int}

variable {last : Int} {ntp : UInt64} {e : RttEstimator}

theorem Heard.mono (h : Heard out peer own last ntp) (hsub : out ⊆ out') : Heard out' peer own last ntp := by
  obtain ⟨d, hd, hrest⟩ := h
  exact ⟨d, hsub hd, hrest⟩

theorem Echoes.mono {mid held : UInt32} (h : Echoes out peer own time mid held) (hsub : out ⊆ out') :
    Echoes out' peer own time mid held := by
  obtain ⟨d, hd, hrest⟩ := h
  exact ⟨d, hsub hd, hrest⟩

theorem Accurate.mono {rtt : Int} (h : Accurate out back rtt) (hout : out ⊆ out') (hback : back ⊆ back') :
    Accurate out' back' rtt := by
  obtain ⟨d, hd, e, he, hrest⟩ := h
  exact ⟨d, hout hd, e, hback he, hrest⟩

theorem Heard.echoes {held : UInt64} (h : Heard out peer own last ntp)
    (hlog : ∀ d ∈ out, d.Timely time) (hreply : Stamp own time reply) (hrange : reply < 4233462144000000000)
    (hlast : 0 < last ∧ last ≤ reply) (hheld : nanoseconds2Ntp (reply - last) = .ok held) :
    Echoes out peer own time (ntp32SetValue ntp) (ntp32SetValue (ntpClamp32 held maxDelay)) := by
  obtain ⟨d, hd, stamp, hstamp, hpos, hntp, harr⟩ := h
  exact ⟨d, hd, stamp, last, reply, ntp, held,
    ⟨(hlog d hd).past, hstamp, hpos, hntp, rfl, harr, hreply, hrange, hlast, hheld, rfl⟩⟩

/-- The main estimate: if the numbers pass the checks of `RttEstimator::update`, the round-trip time is that
of the report and the reply. -/
theorem Restored.accurate (h : Restored out own peer time current report delay)
    (hlog : ∀ d ∈ out, d.Timely now ∧ d.sent ≤ sent) (hsent : Stamp own sent current)
    (hrange : 0 < current ∧ current < 4233462144000000000) (hrecent : now - sent ≤ 32767000000000)
    (hreply : Stamp own now reply) (hback : (⟨time, now⟩ : Delivery) ∈ back)
    (htimely : (⟨time, now⟩ : Delivery).Timely now) (hpos : 0 < report) (hrtt : 0 ≤ reply - report - delay) :
    Accurate out back (reply - report - delay) := by
  obtain ⟨mid, held, ⟨d, hd, stamp, last, answer, x, hold, he⟩, base, y, hbase, hy, rfl, rfl⟩ := h
  obtain ⟨hd', hle⟩ := hlog d hd
  obtain ⟨horder, _, hdelay⟩ := hd'
  obtain ⟨horder', _, hdelay'⟩ := htimely
  rw [he.mid_ntp] at hy
  rw [he.delay_held] at hrtt ⊢
  have hstamp := he.stamp_sent
  have hlast := he.last_arrived
  have hanswer := he.reply_time
  have hfit := he.reply_range
  have hbefore := he.before
  obtain ⟨hlast0, hheld⟩ := he.order
  unfold Stamp at hsent hreply hstamp hlast hanswer
  dsimp only at horder' hdelay'
  have hnear := rtt_near he.stamp_pos (by omega) hrange.2 (by omega) (by omega) (by omega) (by omega) (by omega)
    he.ntp_stamp hbase hy hpos he.held_ntp rfl hrtt
  refine ⟨d, hd, ⟨time, now⟩, hback, horder, he.before, horder', ?_⟩
  dsimp only
  generalize reply - ntp2Unix y - ntp2Nanoseconds _ = rtt at hnear
  have habs : |rtt - (d.arrived - d.sent + (now - time))| ≤ 22896 := abs_le.mpr ⟨by omega, by omega⟩
  omega

/-- A party with offset `own` processes, at the report time `reply`, a packet that was sent at `time` and
arrives now; its own last report was made at `sent`, with the report time `current`. -/
structure Hearing (own : Int) (out back : List Delivery) (time now sent current reply : Int) : Prop where
  stamp : Stamp own now reply
  recent : current ≠ 0 → Stamp own sent current ∧ 0 < current ∧ current < 4233462144000000000 ∧
    now - sent ≤ 32767000000000
  log : ∀ d ∈ out, d.Timely now ∧ d.sent ≤ sent
  mem : (⟨time, now⟩ : Delivery) ∈ back
  timely : (⟨time, now⟩ : Delivery).Timely now

theorem Hearing.accurate (h : Hearing own out back time now sent current reply) (hcurrent : current ≠ 0)
    (hr : Restored out own peer time current report delay) (hpos : 0 < report)
    (hrtt : 0 ≤ reply - report - delay) : Accurate out back (reply - report - delay) := by
  obtain ⟨hsent, hlow, hhigh, hrecent⟩ := h.recent hcurrent
  exact hr.accurate h.log hsent ⟨hlow, hhigh⟩ hrecent h.stamp h.mem h.timely hpos hrtt

/-! ## The estimator -/

def Good (out back : List Delivery) (e : RttEstimator) : Prop :=
  0 ≤ e.lastReportTs ∧ (e.hasMetrics = true → Accurate out back e.metrics.rtt)

theorem Good.mono (h : Good out back e) (hout : out ⊆ out') (hback : back ⊆ back') : Good out' back' e :=
  ⟨h.1, fun hm => (h.2 hm).mono hout hback⟩

theorem Good.empty : Good out back {} := ⟨Int.le_refl 0, fun h => by cases h⟩

theorem Good.update (h : Good out back e) {answer : Int}
    (hacc : 0 < report → 0 ≤ reply - report - delay → Accurate out back (reply - report - delay)) :
    Good out back (e.update report (answer - delay) answer reply) := by
  unfold RttEstimator.update
  split
  · exact h
  · split
    · exact h
    · dsimp only
      split
      · exact h
      · rename_i hnew hneg
        have h0 := h.1
        have hrtt : reply - report - (answer - (answer - delay)) = reply - report - delay := by omega
        rw [hrtt] at hneg ⊢
        exact ⟨by dsimp only; omega, fun _ => hacc (by omega) (by omega)⟩

end

/-! ## What the sender knows of a receiver -/

open Exchange (Clocks)

variable {π : Type} {P : Participant π} {clocks : Clocks} {out out' back back' : List Delivery}

/-- A stream of the sender; `current` is the time of its last SR. -/
structure SenderView (clocks : Clocks) (out back : List Delivery) (current : Int) (r : RemoteState) : Prop where
  heard : 0 < r.lastRemoteRr → Heard back clocks.receiver clocks.sender r.lastRemoteRr r.lastRemoteRrNtp
  good : Good out back r.remoteRecvRtt
  silent : current = 0 → r.lastLocalSr = 0

variable {current' : Int} {current : Int} {r : RemoteState}

theorem SenderView.mono (h : SenderView clocks out back current r)
    (hout : out ⊆ out') (hback : back ⊆ back') (hcurrent : current' = 0 → current = 0) :
    SenderView clocks out' back' current' r :=
  ⟨fun hr => (h.heard hr).mono hback, h.good.mono hout hback, fun hc => h.silent (hcurrent hc)⟩

theorem SenderView.settled (current : Int) : Reporter.Settled fun _ => SenderView clocks out back current :=
  ⟨fun _ => ⟨fun h => absurd h (Int.lt_irrefl 0), .empty, fun _ => rfl⟩, fun _ _ _ h => ⟨h.heard, h.good, h.silent⟩⟩

/-- While the reception blocks of a packet from `ssrc` are read: what is stored about our last SR comes from
this packet, unless a block about us is still to come (`todo`). -/
def Pending (clocks : Clocks) (out back : List Delivery) (current : Int) (ssrc : UInt32) (time : Int)
    (todo : Prop) (k : UInt32) (r : RemoteState) : Prop :=
  SenderView clocks out back current r ∧ (k = ssrc → r.lastLocalSr ≠ 0 →
    Restored out clocks.sender clocks.receiver time current r.lastLocalSr r.lastRemoteDlsr ∨ todo)

theorem Pending.settled (current : Int) (ssrc : UInt32) (time : Int) (todo : Prop) :
    Reporter.Settled (Pending clocks out back current ssrc time todo) :=
  ⟨fun k => ⟨(SenderView.settled current).fresh k, fun _ h => absurd rfl h⟩,
    fun k r ssrc h => ⟨(SenderView.settled current).senderSourceId k r ssrc h.1, h.2⟩⟩

section
variable {s s' s0 : Reporter π} {current time now sent : Int} {ssrc : UInt32} {r remote : RemoteState} {rebuild : Bool}

theorem applyReceptionBlock_rtt {blk : ReceptionReportBlock}
    (h : s.applyReceptionBlock ssrc blk r = .ok (remote, rebuild)) :
    remote.lastRemoteRr = r.lastRemoteRr ∧ remote.lastRemoteRrNtp = r.lastRemoteRrNtp ∧
      remote.remoteRecvRtt = r.remoteRecvRtt ∧
      ((s.currentSr = 0 ∧ remote.lastLocalSr = r.lastLocalSr) ∨
        (s.currentSr ≠ 0 ∧ ∃ base y, unix2Ntp s.currentSr = .ok base ∧
          ntpExtend base (ntp32Value blk.lastSr) = .ok y ∧ remote.lastLocalSr = ntp2Unix y ∧
          remote.lastRemoteDlsr = ntp2Nanoseconds (ntp32Value blk.delayLastSr))) := by
  obtain ⟨_, _, h⟩ := bind_eq_ok.mp h
  obtain ⟨stored, hs, h⟩ := bind_eq_ok.mp h
  cases h
  unfold storeDlsr at hs
  by_cases hc : s.currentSr = 0
  · rw [if_pos hc] at hs
    cases hs
    exact ⟨rfl, rfl, rfl, .inl ⟨hc, rfl⟩⟩
  · rw [if_neg hc] at hs
    obtain ⟨base, hb, hs⟩ := bind_eq_ok.mp hs
    obtain ⟨y, hy, hs⟩ := bind_eq_ok.mp hs
    cases hs
    exact ⟨rfl, rfl, rfl, .inr ⟨hc, base, y, hb, hy, rfl, rfl⟩⟩

theorem Pending.blocks {blocks : List ReceptionReportBlock}
    (hblk : ∀ blk ∈ blocks, blk.ssrc = s0.localSourceId → s0.currentSr ≠ 0 →
      Echoes out clocks.sender clocks.receiver time blk.lastSr blk.delayLastSr) :
    ∀ {s s' : Reporter π}, s0.SameCall s →
      s.Remotes (Pending clocks out back s0.currentSr ssrc time (s0.hasLocalSendReport = true ∧
        ∃ blk ∈ blocks, blk.ssrc = s0.localSourceId)) →
      (blocks.map (Report.receptionBlock ssrc)).foldlM (process P) s = .ok s' →
      s0.SameCall s' ∧ s'.Remotes (Pending clocks out back s0.currentSr ssrc time False) := by
  induction blocks with
  | nil =>
    intro s s' hs h hf
    cases hf
    exact ⟨hs, h.mono fun k r hr => ⟨hr.1, fun hk hl => (hr.2 hk hl).imp_right fun ⟨_, _, hm, _⟩ => by cases hm⟩⟩
  | cons blk blocks ih =>
    intro s s' hs h hf
    obtain ⟨s1, hp, hf⟩ := bind_eq_ok.mp hf
    refine ih (forall_mem_cons.mp hblk).2 (hs.trans (sameCall_process hp)) ?_ hf
    have heq : s.currentSr = s0.currentSr ∧ s.localSourceId = s0.localSourceId ∧
        s.hasLocalSendReport = s0.hasLocalSendReport := by
      obtain ⟨_, _, _, _, _, _, _, _, rfl⟩ := hs
      exact ⟨rfl, rfl, rfl⟩
    obtain ⟨hcur, hid, hhas⟩ := heq
    intro k stream hk
    obtain ⟨r, hr, hcase⟩ := h.streams (Pending.settled _ _ _ _) rfl hp hk
    have hacc : s.accepts (.receptionBlock ssrc blk) = true ↔
        s0.hasLocalSendReport = true ∧ blk.ssrc = s0.localSourceId := by
      simp only [accepts, hid, hhas, Bool.and_eq_true, beq_iff_eq]
    rcases hcase with ⟨heq, hnot⟩ | ⟨rfl, ha, _, rebuild, happly⟩
    · -- the block is not stored in this stream
      rw [heq]
      refine ⟨hr.1, fun hks hl => (hr.2 hks hl).imp_right ?_⟩
      rintro ⟨hsend, b, hb, hbs⟩
      refine ⟨hsend, b, ?_, hbs⟩
      rcases mem_cons.mp hb with rfl | hb
      · have := hnot hks (hacc.mpr ⟨hsend, hbs⟩)
        cases this
      · exact hb
    · obtain ⟨hrr, hntp, hest, hlocal⟩ := applyReceptionBlock_rtt happly
      obtain ⟨_, hblks⟩ := hacc.mp ha
      rw [hcur] at hlocal
      refine ⟨⟨by rw [hrr, hntp]; exact hr.1.heard, by rw [hest]; exact hr.1.good, fun hc => ?_⟩, fun _ hl => .inl ?_⟩
      · rcases hlocal with ⟨_, hsame⟩ | ⟨hne, _⟩
        · rw [hsame]
          exact hr.1.silent hc
        · exact absurd hc hne
      · rcases hlocal with ⟨hc, hsame⟩ | ⟨hne, base, y, hb, hy, hls, hdl⟩
        · rw [hsame] at hl
          exact absurd (hr.1.silent hc) hl
        · exact ⟨blk.lastSr, blk.delayLastSr, hblk blk mem_cons_self hblks hne, base, y, hb, hy, hls, hdl⟩

variable {xr : XrPacket}

theorem SenderView.rrtr {blk : XrRrtrBlock}
    (hear : Hearing clocks.sender out back time now sent s0.currentSr s0.reportTime)
    (hblk : ∃ stamp, Stamp clocks.receiver time stamp ∧ 0 ≤ stamp ∧ unix2Ntp stamp = .ok blk.ntpTimestamp)
    (hs : s0.SameCall s) (h : s.Remotes (Pending clocks out back s0.currentSr xr.ssrc time False))
    (hp : s.process P (.rrtr xr blk) = .ok s') : s'.Remotes fun _ => SenderView clocks out back s0.currentSr := by
  have htime : s.reportTime = s0.reportTime := by
    obtain ⟨_, _, _, _, _, _, _, _, rfl⟩ := hs
    rfl
  intro k stream hk
  obtain ⟨r, hr, hcase⟩ := h.streams (Pending.settled _ _ _ _) rfl hp hk
  rcases hcase with ⟨heq, _⟩ | ⟨rfl, _, _, rebuild, happly⟩
  · rw [heq]
    exact hr.1
  · obtain ⟨hremote, -⟩ := Prod.mk.inj (ok.inj happly)
    rw [← hremote]
    unfold applyRrtrBlock updateRecvRtt
    have hheard : Heard back clocks.receiver clocks.sender s.reportTime blk.ntpTimestamp := by
      obtain ⟨stamp, hstamp, hpos, hntp⟩ := hblk
      exact ⟨_, hear.mem, stamp, hstamp, hpos, hntp, htime ▸ hear.stamp⟩
    dsimp only
    split
    · rename_i hsome
      refine ⟨fun _ => hheard, hr.1.good.update fun hpos hrtt => ?_, hr.1.silent⟩
      have hcur : s0.currentSr ≠ 0 := fun hc => hsome.1 (hr.1.silent hc)
      rw [htime] at hrtt ⊢
      exact hear.accurate hcur ((hr.2 rfl hsome.1).resolve_right id) hpos hrtt
    · exact ⟨fun _ => hheard, hr.1.good, hr.1.silent⟩

open SenderView

theorem SenderView.keeps {report : Report}
    {m : XrMeasurementInfoBlock × XrDelayMetricsBlock × XrQueueMetricsBlock}
    (hs : s.Remotes fun _ => SenderView clocks out back current) (hm : report ∈ metricsReports xr m)
    (hp : s.process P report = .ok s') : s'.Remotes fun _ => SenderView clocks out back current := by
  refine hs.process (settled current) ?_ hp
  rintro r remote rebuild hr - - happly
  simp only [metricsReports, mem_cons, not_mem_nil, or_false] at hm
  rcases hm with rfl | rfl | rfl <;> obtain ⟨rfl, -⟩ := Prod.mk.inj (ok.inj happly)
  · exact ⟨hr.heard, hr.good, hr.silent⟩
  · obtain ⟨_, he, _⟩ := applyDelayMetricsBlock_frame m.2.1 r
    rw [he]
    exact ⟨hr.heard, hr.good, hr.silent⟩
  · obtain ⟨_, he, _⟩ := applyQueueMetricsBlock_frame m.2.2 r
    rw [he]
    exact ⟨hr.heard, hr.good, hr.silent⟩

variable {reports : List Report}

theorem foldlM_keeps {I : Reporter π → Prop}
    (hI : ∀ report ∈ reports, ∀ {s s' : Reporter π}, I s → s.process P report = .ok s' → I s') :
    ∀ {s s' : Reporter π}, I s → reports.foldlM (process P) s = .ok s' → I s' := by
  induction reports with
  | nil =>
    intro s s' hs hf
    cases hf
    exact hs
  | cons report reports ih =>
    intro s s' hs hf
    obtain ⟨s1, hp, hf⟩ := bind_eq_ok.mp hf
    exact ih (forall_mem_cons.mp hI).2 (hI report mem_cons_self hs hp) hf

theorem sameCall_foldlM (hs : s0.SameCall s) (hf : reports.foldlM (process P) s = .ok s') : s0.SameCall s' :=
  foldlM_keeps (fun _ _ => fun hs hp => hs.trans (sameCall_process hp)) hs hf

section
variable {addr : SocketAddr} {reports : List Report} {heard : Bool} (h : s.hear P addr time reports = .ok (heard, s'))
include h

theorem hear_cases : (heard = false ∧ ∃ code, s.beginProcessing P addr time = .ok (code, s')) ∨
    (heard = true ∧ ∃ s1 s2 code, s.beginProcessing P addr time = .ok (.ok, s1) ∧
      reports.foldlM (process P) s1 = .ok s2 ∧ s2.endProcessing P = .ok (code, s')) := by
  unfold hear at h
  obtain ⟨⟨code, s1⟩, hb, h⟩ := bind_eq_ok.mp h
  dsimp only at h
  by_cases hc : code = .ok
  · subst hc
    rw [if_neg (not_not.mpr rfl)] at h
    obtain ⟨s2, hf, h⟩ := bind_eq_ok.mp h
    obtain ⟨⟨code, s3⟩, he, h⟩ := bind_eq_ok.mp h
    cases h
    exact .inr ⟨rfl, s1, s2, code, hb, hf, he⟩
  · rw [if_pos hc] at h
    cases h
    exact .inl ⟨rfl, code, hb⟩

theorem sentTimes_hear : s'.sentTimes = s.sentTimes := by
  rcases hear_cases h with ⟨_, code, hb⟩ | ⟨_, s1, s2, code, hb, hf, he⟩
  · exact (sentTimes_beginReport hb).trans rfl
  · rw [sentTimes_endProcessing he]
    obtain ⟨_, _, _, _, _, _, _, _, rfl⟩ := sameCall_foldlM (Reporter.SameCall.refl s1) hf
    exact (sentTimes_beginReport hb).trans rfl

end

theorem SenderView.hear {addr : SocketAddr} {p : ReceiverPacket} {heard : Bool}
    (h : s.Remotes fun _ => SenderView clocks out back s.currentSr) (hear : ∀ reply, Stamp clocks.sender now reply →
      Hearing clocks.sender out (⟨time, now⟩ :: back) time now sent s.currentSr reply)
    (hssrc : p.xr.ssrc = p.rr.ssrc) (hblk : ∀ blk ∈ p.blocks, blk.ssrc = s.localSourceId → s.currentSr ≠ 0 →
      Echoes out clocks.sender clocks.receiver time blk.lastSr blk.delayLastSr)
    (hrrtr : ∃ stamp, Stamp clocks.receiver time stamp ∧ 0 ≤ stamp ∧ unix2Ntp stamp = .ok p.rrtr.ntpTimestamp)
    (htodo : ∀ stream, s.streams.find p.rr.ssrc = some stream → stream.lastLocalSr ≠ 0 →
      P.hasSendStream s.participant = true ∧ ∃ blk ∈ p.blocks, blk.ssrc = s.localSourceId)
    (hr : s.hear P addr (now + clocks.sender) p.reports = .ok (heard, s')) :
    s'.Remotes fun _ => SenderView clocks out (if heard then ⟨time, now⟩ :: back else back) s.currentSr := by
  rcases hear_cases hr with ⟨rfl, code, hb⟩ | ⟨rfl, s1, s2, code, hb, hf, he⟩
  · exact beginReport (s := s.setReportAddr addr) h (settled _) hb
  · obtain ⟨hpos, htime, htimes, hid, hsend⟩ := beginReport_ok hb
    have hcur : s1.currentSr = s.currentSr := congrArg Prod.fst htimes
    have hid : s1.localSourceId = s.localSourceId := hid
    have hsend : s1.hasLocalSendReport = P.hasSendStream s.participant := hsend
    have hstamp : Stamp clocks.sender now s1.reportTime := by
      rw [htime]
      exact nextReportTime_near _ _
    -- before the blocks: a block about us is to come
    have h0 : s.Remotes (Pending clocks out (⟨time, now⟩ :: back) s.currentSr p.rr.ssrc time
        (P.hasSendStream s.participant = true ∧ ∃ blk ∈ p.blocks, blk.ssrc = s.localSourceId)) := by
      intro k stream hk
      refine ⟨(h k stream hk).mono (fun _ hd => hd) (subset_cons_self _ _) id, fun hks hl => .inr ?_⟩
      exact htodo stream (hks ▸ hk) hl
    have h1 := beginReport (s := s.setReportAddr addr) h0 (Pending.settled _ _ _ _) hb
    obtain ⟨s3, hcname, hf⟩ := bind_eq_ok.mp hf
    rw [← hcur, ← hid, ← hsend] at h1
    have h3 := h1.process (Pending.settled _ _ _ _) (by
      rintro r remote rebuild hr - - happly
      obtain ⟨rfl, -⟩ := Prod.mk.inj (ok.inj happly)
      exact hr) hcname
    rw [foldlM_append] at hf
    obtain ⟨s4, hblocks, hf⟩ := bind_eq_ok.mp hf
    obtain ⟨s5, hrr, hf⟩ := bind_eq_ok.mp hf
    rw [← hid, ← hcur] at hblk
    obtain ⟨hsame, h4⟩ := Pending.blocks hblk (sameCall_process hcname) h3 hblocks
    rw [← hssrc] at h4
    have h5 := rrtr (hcur ▸ hear _ hstamp) hrrtr hsame h4 hrr
    have h6 := foldlM_keeps (fun report hm => by
      obtain ⟨m, _, hm⟩ := mem_flatMap.mp hm
      exact fun hs hp => keeps hs hm hp) h5 hf
    rw [hcur] at h6
    exact h6.endProcessing he

end

/-! ## What the receiver knows of a sender -/

/-- A stream of the receiver; `current` is the time of its last RR. -/
structure ReceiverView (clocks : Clocks) (out back : List Delivery) (current : Int) (r : RemoteState) : Prop where
  heard : 0 < r.lastRemoteSr → Heard out clocks.sender clocks.receiver r.lastRemoteSr r.lastRemoteSrNtp
  good : Good back out r.remoteSendRtt
  silent : current = 0 → r.lastLocalRr = 0

theorem ReceiverView.mono (h : ReceiverView clocks out back current r)
    (hout : out ⊆ out') (hback : back ⊆ back') (hcurrent : current' = 0 → current = 0) :
    ReceiverView clocks out' back' current' r :=
  ⟨fun hr => (h.heard hr).mono hout, h.good.mono hback hout, fun hc => h.silent (hcurrent hc)⟩

theorem ReceiverView.settled (current : Int) : Reporter.Settled fun _ => ReceiverView clocks out back current :=
  ⟨fun _ => ⟨fun h => absurd h (Int.lt_irrefl 0), .empty, fun _ => rfl⟩, fun _ _ _ h => ⟨h.heard, h.good, h.silent⟩⟩

/-- After the SR of a packet from `ssrc`, with the report time `reply`. -/
def Announced (clocks : Clocks) (out back : List Delivery) (current : Int) (ssrc : UInt32) (reply : Int)
    (k : UInt32) (r : RemoteState) : Prop :=
  ReceiverView clocks out back current r ∧ (k = ssrc → r.hasRemoteSendReport = true → r.lastRemoteSr = reply)

theorem Announced.settled (current : Int) (ssrc : UInt32) (reply : Int) :
    Reporter.Settled (Announced clocks out back current ssrc reply) :=
  ⟨fun k => ⟨(ReceiverView.settled current).fresh k, fun _ h => by cases h⟩,
    fun k r ssrc h => ⟨(ReceiverView.settled current).senderSourceId k r ssrc h.1, h.2⟩⟩

section
variable {s s' s0 : Reporter π} {current time now sent : Int} {ssrc : UInt32} {r remote : RemoteState} {rebuild : Bool}

theorem Announced.sr {sr : SenderReportPacket}
    (hear : Hearing clocks.receiver back out time now sent s0.currentRr s0.reportTime)
    (hsr : ∃ stamp, Stamp clocks.sender time stamp ∧ 0 ≤ stamp ∧ unix2Ntp stamp = .ok sr.ntpTimestamp)
    (hs : s0.SameCall s) (h : s.Remotes fun _ => ReceiverView clocks out back s0.currentRr)
    (hp : s.process P (.sr sr) = .ok s') :
    s'.Remotes (Announced clocks out back s0.currentRr sr.ssrc s0.reportTime) := by
  have htime : s.reportTime = s0.reportTime := by
    obtain ⟨_, _, _, _, _, _, _, _, rfl⟩ := hs
    rfl
  intro k stream hk
  obtain ⟨r, hr, hcase⟩ := h.streams (ReceiverView.settled _) rfl hp hk
  rcases hcase with ⟨heq, hnot⟩ | ⟨_, _, _, rebuild, happly⟩
  · rw [heq]
    refine ⟨hr, fun hks => ?_⟩
    have := hnot hks rfl
    cases this
  · obtain ⟨hremote, -⟩ := Prod.mk.inj (ok.inj happly)
    rw [← hremote]
    refine ⟨⟨fun _ => ?_, hr.good, hr.silent⟩, fun _ _ => htime⟩
    obtain ⟨stamp, hstamp, hpos, hntp⟩ := hsr
    exact ⟨_, hear.mem, stamp, hstamp, hpos, hntp, htime ▸ hear.stamp⟩

theorem storeDlrr_rtt {blk : XrDlrrSubblock} (h : s.storeDlrr blk r = .ok remote) : (s.currentRr = 0 ∧ remote = r) ∨
      (s.currentRr ≠ 0 ∧ ∃ base y, unix2Ntp s.currentRr = .ok base ∧
        ntpExtend base (ntp32Value blk.lastRr) = .ok y ∧
        remote = { r with lastLocalRr := ntp2Unix y
                          lastRemoteDlrr := ntp2Nanoseconds (ntp32Value blk.delayLastRr) }) := by
  unfold storeDlrr at h
  by_cases hc : s.currentRr = 0
  · rw [if_pos hc] at h
    cases h
    exact .inl ⟨hc, rfl⟩
  · rw [if_neg hc] at h
    obtain ⟨base, hb, h⟩ := bind_eq_ok.mp h
    obtain ⟨y, hy, h⟩ := bind_eq_ok.mp h
    cases h
    exact .inr ⟨hc, base, y, hb, hy, rfl⟩

section
variable (hear : Hearing clocks.receiver back out time now sent s0.currentRr s0.reportTime)
include hear

variable {xr : XrPacket}

theorem Announced.dlrr {blk : XrDlrrSubblock} (hblk : blk.ssrc = s0.localSourceId → s0.currentRr ≠ 0 →
      Echoes back clocks.receiver clocks.sender time blk.lastRr blk.delayLastRr)
    (hs : s0.SameCall s) (h : s.Remotes (Announced clocks out back s0.currentRr xr.ssrc s0.reportTime))
    (hp : s.process P (.dlrrSubblock xr blk) = .ok s') :
    s'.Remotes (Announced clocks out back s0.currentRr xr.ssrc s0.reportTime) := by
  have heq : s.currentRr = s0.currentRr ∧ s.localSourceId = s0.localSourceId := by
    obtain ⟨_, _, _, _, _, _, _, _, rfl⟩ := hs
    exact ⟨rfl, rfl⟩
  obtain ⟨hcur, hid⟩ := heq
  refine h.process (Announced.settled _ _ _) ?_ hp
  intro r remote rebuild hr hacc hready happly
  obtain ⟨stored, hst, happly⟩ := bind_eq_ok.mp happly
  cases happly
  have hblks : blk.ssrc = s0.localSourceId := hid ▸ beq_iff_eq.mp hacc
  have hlast : r.lastRemoteSr = s0.reportTime := hr.2 rfl hready
  unfold updateSendRtt
  rcases storeDlrr_rtt hst with ⟨hc, rfl⟩ | ⟨hc, base, y, hb, hy, rfl⟩
  · rw [hcur] at hc
    rw [if_neg fun hsome => hsome.1 (hr.1.silent hc)]
    exact hr
  · rw [hcur] at hc hb
    have hrestored : Restored back clocks.receiver clocks.sender time s0.currentRr (ntp2Unix y)
        (ntp2Nanoseconds (ntp32Value blk.delayLastRr)) :=
      ⟨blk.lastRr, blk.delayLastRr, hblk hblks hc, base, y, hb, hy, rfl, rfl⟩
    split
    · refine ⟨⟨hr.1.heard, hr.1.good.update fun hpos hrtt => ?_, fun h0 => absurd h0 hc⟩, hr.2⟩
      dsimp only at hrtt ⊢
      rw [hlast] at hrtt ⊢
      exact hear.accurate hc hrestored hpos hrtt
    · exact ⟨⟨hr.1.heard, hr.1.good, fun h0 => absurd h0 hc⟩, hr.2⟩

theorem Announced.dlrrs {blocks : List XrDlrrSubblock}
    (hblk : ∀ blk ∈ blocks, blk.ssrc = s0.localSourceId → s0.currentRr ≠ 0 →
      Echoes back clocks.receiver clocks.sender time blk.lastRr blk.delayLastRr)
    (hs : s0.SameCall s) (h : s.Remotes (Announced clocks out back s0.currentRr xr.ssrc s0.reportTime))
    (hf : (blocks.map (Report.dlrrSubblock xr)).foldlM (process P) s = .ok s') :
    s'.Remotes (Announced clocks out back s0.currentRr xr.ssrc s0.reportTime) := by
  refine (foldlM_keeps (I := fun s => s0.SameCall s ∧ s.Remotes (Announced clocks out back s0.currentRr xr.ssrc
    s0.reportTime)) (fun report hm => ?_) ⟨hs, h⟩ hf).2
  obtain ⟨blk, hb, rfl⟩ := mem_map.mp hm
  exact fun ⟨hs, h⟩ hp => ⟨hs.trans (sameCall_process hp), Announced.dlrr hear (hblk blk hb) hs h hp⟩

end

theorem ReceiverView.hear {addr : SocketAddr} {p : SenderPacket} {heard : Bool}
    (h : s.Remotes fun _ => ReceiverView clocks out back s.currentRr) (hear : ∀ reply, Stamp clocks.receiver now reply →
      Hearing clocks.receiver back (⟨time, now⟩ :: out) time now sent s.currentRr reply)
    (hssrc : p.xr.ssrc = p.sr.ssrc) (hblk : ∀ blk ∈ p.dlrr, blk.ssrc = s.localSourceId → s.currentRr ≠ 0 →
      Echoes back clocks.receiver clocks.sender time blk.lastRr blk.delayLastRr)
    (hsr : ∃ stamp, Stamp clocks.sender time stamp ∧ 0 ≤ stamp ∧ unix2Ntp stamp = .ok p.sr.ntpTimestamp)
    (hr : s.hear P addr (now + clocks.receiver) p.reports = .ok (heard, s')) :
    s'.Remotes fun _ => ReceiverView clocks (if heard then ⟨time, now⟩ :: out else out) back s.currentRr := by
  rcases hear_cases hr with ⟨rfl, code, hb⟩ | ⟨rfl, s1, s2, code, hb, hf, he⟩
  · exact beginReport (s := s.setReportAddr addr) h (ReceiverView.settled _) hb
  · obtain ⟨hpos, htime, htimes, hid, _⟩ := beginReport_ok hb
    have hcur : s1.currentRr = s.currentRr := congrArg Prod.snd htimes
    have hid : s1.localSourceId = s.localSourceId := hid
    have hstamp : Stamp clocks.receiver now s1.reportTime := by
      rw [htime]
      exact nextReportTime_near _ _
    have h0 : s.Remotes fun _ => ReceiverView clocks (⟨time, now⟩ :: out) back s.currentRr :=
      h.mono fun _ _ hr => hr.mono (subset_cons_self _ _) (fun _ hd => hd) id
    have h1 := beginReport (s := s.setReportAddr addr) h0 (ReceiverView.settled _) hb
    obtain ⟨s3, hcname, hf⟩ := bind_eq_ok.mp hf
    obtain ⟨s4, hsrp, hf⟩ := bind_eq_ok.mp hf
    rw [← hcur] at h1
    rw [← hid, ← hcur] at hblk
    have h3 := h1.process (ReceiverView.settled _) (by
      rintro r remote rebuild hr - - happly
      obtain ⟨rfl, -⟩ := Prod.mk.inj (ok.inj happly)
      exact hr) hcname
    have hear1 := hcur ▸ hear _ hstamp
    have hs3 := sameCall_process hcname
    have h4 := Announced.sr hear1 hsr hs3 h3 hsrp
    rw [← hssrc] at h4
    have h5 := Announced.dlrrs hear1 hblk (hs3.trans (sameCall_process hsrp)) h4 hf
    have h6 := (h5.mono fun _ _ hr => hr.1).endProcessing he
    rw [hcur] at h6
    exact h6

/-! ## Generation -/

theorem mem_of_mapM {α β : Type} {f : α → Except Fault β} {l : List α} : ∀ {l' : List β},
    l.mapM f = .ok l' → ∀ b ∈ l', ∃ a, f a = .ok b := by
  induction l with
  | nil =>
    intro l' h b hb
    cases h
    cases hb
  | cons a l ih =>
    intro l' h b hb
    rw [mapM_cons] at h
    obtain ⟨b', hfa, h⟩ := bind_eq_ok.mp h
    obtain ⟨l'', hm, h⟩ := bind_eq_ok.mp h
    cases h
    rcases mem_cons.mp hb with rfl | hb
    · exact ⟨a, hfa⟩
    · exact ih hm b hb

variable {stream : Stream} {blk : ReceptionReportBlock} {targets : List (Nat × Nat)} {j : Nat}

theorem streamAt_ok {index : List StreamPtr} {k : UInt32}
    (h : s.streamAt index j = .ok (k, stream)) : s.streams.find k = some stream := by
  unfold streamAt at h
  split at h
  · cases h
  · split at h
    · cases h
    · rename_i hf
      split at h
      · cases h
        exact hf
      · cases h

def Repeats (reportTime last : Int) (ntp : UInt64) (mid delay : UInt32) : Prop :=
  mid = 0 ∨ (0 < last ∧ last ≤ reportTime ∧ ∃ held, nanoseconds2Ntp (reportTime - last) = .ok held ∧
    mid = ntp32SetValue ntp ∧ delay = ntp32SetValue (ntpClamp32 held maxDelay))

theorem Repeats.echoes {own peer last reply : Int} {ntp : UInt64} {mid delay : UInt32}
    (h : Repeats reply last ntp mid delay) (hheard : 0 < last → Heard out peer own last ntp)
    (hlog : ∀ d ∈ out, d.Timely time) (hreply : Stamp own time reply) (hrange : reply < 4233462144000000000)
    (hmid : mid ≠ 0) : Echoes out peer own time mid delay := by
  rcases h with hzero | ⟨hpos, hle, held, hh, rfl, rfl⟩
  · exact absurd hzero hmid
  · exact (hheard hpos).echoes hlog hreply hrange ⟨hpos, hle⟩ hh

theorem generateDlrrSubblock_cases {i : Nat} {blk : XrDlrrSubblock}
    (h : s.generateDlrrSubblock P i j = .ok blk) : ∃ k stream, s.streams.find k = some stream ∧
      Repeats s.reportTime stream.lastRemoteRr stream.lastRemoteRrNtp blk.lastRr blk.delayLastRr := by
  unfold generateDlrrSubblock at h
  obtain ⟨_, _, h⟩ := bind_eq_ok.mp h
  split at h
  · cases h
  · obtain ⟨address, _, h⟩ := bind_eq_ok.mp h
    obtain ⟨⟨k, stream⟩, hs, h⟩ := bind_eq_ok.mp h
    dsimp only at h
    split at h
    · rename_i hheard
      obtain ⟨held, hh, h⟩ := bind_eq_ok.mp h
      cases h
      exact ⟨k, stream, streamAt_ok hs, .inr ⟨hheard.1, hheard.2, held, hh, rfl, rfl⟩⟩
    · cases h
      exact ⟨k, stream, streamAt_ok hs, .inl rfl⟩

theorem Repeats.of_heard {b : ReceptionReportBlock} (hb : b.lastSr = 0)
    (h : (if r.lastRemoteSr > 0 ∧ r.lastRemoteSr ≤ time then do
        let delay ← nanoseconds2Ntp (time - r.lastRemoteSr)
        pure { b with lastSr := ntp32SetValue r.lastRemoteSrNtp
                      delayLastSr := ntp32SetValue (ntpClamp32 delay maxDelay) }
      else pure b) = ok blk) :
    Repeats time r.lastRemoteSr r.lastRemoteSrNtp blk.lastSr blk.delayLastSr := by
  split at h
  · rename_i hheard
    obtain ⟨held, hh, h⟩ := bind_eq_ok.mp h
    cases h
    exact .inr ⟨hheard.1, hheard.2, held, hh, rfl, rfl⟩
  · cases h
    exact .inl hb

theorem receptionBlock_cases {report : RecvReport} {fractLoss : Float32}
    (h : s.receptionBlock ssrc stream report fractLoss = .ok blk) :
    Repeats s.reportTime stream.lastRemoteSr stream.lastRemoteSrNtp blk.lastSr blk.delayLastSr := by
  unfold receptionBlock at h
  dsimp only at h
  split at h
  · obtain ⟨jitter, _, h⟩ := bind_eq_ok.mp h
    exact .of_heard (by rfl) h
  · exact .of_heard (by rfl) h

theorem generateReceptionBlock_cases {i : Nat} (h : s.generateReceptionBlock P i j = .ok (blk, s')) :
    ∃ k stream loss, s.streams.find k = some stream ∧
      Repeats s.reportTime stream.lastRemoteSr stream.lastRemoteSrNtp blk.lastSr blk.delayLastSr ∧
      s' = s.modifyStream k fun stream => { stream with localRecvLoss := loss } := by
  unfold generateReceptionBlock at h
  obtain ⟨_, _, h⟩ := bind_eq_ok.mp h
  obtain ⟨⟨k, stream⟩, hs, h⟩ := bind_eq_ok.mp h
  obtain ⟨report, _, h⟩ := bind_eq_ok.mp h
  obtain ⟨b, hblk, h⟩ := bind_eq_ok.mp h
  cases h
  unfold recvStreamAt at hs
  split at hs
  · cases hs
  · obtain ⟨_, _, hs⟩ := bind_eq_ok.mp hs
    exact ⟨k, stream, _, streamAt_ok hs, receptionBlock_cases hblk, rfl⟩

theorem reportAsSender_cases {packet : Option SenderPacket} (h : s.reportAsSender P time targets = .ok (packet, s')) :
    (packet = none ∧ ∃ code, s.beginGeneration P time = .ok (code, s')) ∨
    ∃ p s1 code, packet = some p ∧ s.beginGeneration P time = .ok (.ok, s1) ∧
      p.xr.ssrc = p.sr.ssrc ∧ unix2Ntp s1.reportTime = .ok p.sr.ntpTimestamp ∧
      (∀ blk ∈ p.dlrr, ∃ k stream, s1.streams.find k = some stream ∧
        Repeats s1.reportTime stream.lastRemoteRr stream.lastRemoteRrNtp blk.lastRr blk.delayLastRr) ∧
      endGeneration P { s1 with currentSr := s1.reportTime } = .ok (code, s') := by
  unfold reportAsSender at h
  obtain ⟨⟨code, s1⟩, hb, h⟩ := bind_eq_ok.mp h
  dsimp only at h
  by_cases hc : code = .ok
  · subst hc
    rw [if_neg (not_not.mpr rfl)] at h
    obtain ⟨⟨sr, s2⟩, hsr, h⟩ := bind_eq_ok.mp h
    obtain ⟨xr, hxr, h⟩ := bind_eq_ok.mp h
    obtain ⟨dlrr, hd, h⟩ := bind_eq_ok.mp h
    obtain ⟨⟨chunk, item⟩, _, h⟩ := bind_eq_ok.mp h
    obtain ⟨⟨code, s3⟩, he, h⟩ := bind_eq_ok.mp h
    cases h
    unfold generateSr at hsr
    obtain ⟨_, _, hsr⟩ := bind_eq_ok.mp hsr
    split at hsr
    · cases hsr
    · obtain ⟨ntp, hntp, hsr⟩ := bind_eq_ok.mp hsr
      cases hsr
      unfold generateXr at hxr
      obtain ⟨_, _, hxr⟩ := bind_eq_ok.mp hxr
      split at hxr
      · cases hxr
      · cases hxr
        refine .inr ⟨_, s1, code, rfl, hb, rfl, hntp, fun blk hm => ?_, he⟩
        obtain ⟨_, hgen⟩ := mem_of_mapM hd blk hm
        exact generateDlrrSubblock_cases hgen
  · rw [if_pos hc] at h
    cases h
    exact .inl ⟨rfl, code, hb⟩

theorem receptionBlocks_cases : ∀ {s s' : Reporter π}
    {blocks : List ReceptionReportBlock}, receptionBlocks P targets s = .ok (blocks, s') →
    (∃ streams, s' = { s with streams }) ∧
      (∀ Q : UInt32 → RemoteState → Prop, s.Remotes Q → s'.Remotes Q) ∧
      ∀ blk ∈ blocks, ∃ k stream, s.streams.find k = some stream ∧
        Repeats s.reportTime stream.lastRemoteSr stream.lastRemoteSrNtp blk.lastSr blk.delayLastSr := by
  induction targets with
  | nil =>
    intro s s' blocks h
    cases h
    exact ⟨⟨_, rfl⟩, fun _ hs => hs, fun _ hm => by cases hm⟩
  | cons target targets ih =>
    intro s s' blocks h
    obtain ⟨⟨blk, s1⟩, hg, h⟩ := bind_eq_ok.mp h
    obtain ⟨⟨rest, s2⟩, hrest, h⟩ := bind_eq_ok.mp h
    cases h
    obtain ⟨k, stream, loss, hf, hrep, rfl⟩ := generateReceptionBlock_cases hg
    obtain ⟨⟨streams, rfl⟩, hkeep, hblocks⟩ := ih hrest
    have hmod (Q : UInt32 → RemoteState → Prop) (hs : s.Remotes Q) :
        (s.modifyStream k fun stream => { stream with localRecvLoss := loss }).Remotes Q :=
      hs.modify fun stream hf => hs k stream hf
    refine ⟨⟨streams, rfl⟩, fun Q hs => hkeep Q (hmod Q hs), fun b hb => ?_⟩
    rcases mem_cons.mp hb with rfl | hb
    · exact ⟨k, stream, hf, hrep⟩
    · obtain ⟨k', stream', hf', hrep'⟩ := hblocks b hb
      obtain ⟨before, hbefore, heq⟩ := hmod (fun k r => ∃ before, s.streams.find k = some before ∧
        r = before.toRemoteState) (fun k before hf => ⟨before, hf, rfl⟩) k' stream' hf'
      rw [heq] at hrep'
      exact ⟨k', before, hbefore, hrep'⟩

theorem reportAsReceiver_cases {packet : Option ReceiverPacket}
    (h : s.reportAsReceiver P time targets = .ok (packet, s')) :
    (packet = none ∧ ∃ code, s.beginGeneration P time = .ok (code, s')) ∨
    ∃ p, ∃ s1 s2 : Reporter π, ∃ code, packet = some p ∧ s.beginGeneration P time = .ok (.ok, s1) ∧
      p.xr.ssrc = p.rr.ssrc ∧ unix2Ntp s1.reportTime = .ok p.rrtr.ntpTimestamp ∧
      (∀ blk ∈ p.blocks, ∃ k stream, s1.streams.find k = some stream ∧
        Repeats s1.reportTime stream.lastRemoteSr stream.lastRemoteSrNtp blk.lastSr blk.delayLastSr) ∧
      s2.sentTimes = (s1.currentSr, s1.reportTime) ∧
      (∀ Q : UInt32 → RemoteState → Prop, s1.Remotes Q → s2.Remotes Q) ∧
      s2.endGeneration P = .ok (code, s') := by
  unfold reportAsReceiver at h
  obtain ⟨⟨code, s1⟩, hb, h⟩ := bind_eq_ok.mp h
  dsimp only at h
  by_cases hc : code = .ok
  · subst hc
    rw [if_neg (not_not.mpr rfl)] at h
    obtain ⟨⟨rr, s2⟩, hrr, h⟩ := bind_eq_ok.mp h
    obtain ⟨⟨blocks, s3⟩, hblocks, h⟩ := bind_eq_ok.mp h
    obtain ⟨xr, hxr, h⟩ := bind_eq_ok.mp h
    obtain ⟨rrtr, hrrtr, h⟩ := bind_eq_ok.mp h
    obtain ⟨metrics, _, h⟩ := bind_eq_ok.mp h
    obtain ⟨⟨chunk, item⟩, _, h⟩ := bind_eq_ok.mp h
    obtain ⟨⟨code, s4⟩, he, h⟩ := bind_eq_ok.mp h
    cases h
    obtain ⟨_, _, hrr⟩ := bind_eq_ok.mp hrr
    cases hrr
    obtain ⟨⟨streams, rfl⟩, hkeep, hrep⟩ := receptionBlocks_cases hblocks
    unfold generateXr at hxr
    obtain ⟨_, _, hxr⟩ := bind_eq_ok.mp hxr
    split at hxr
    · cases hxr
    · cases hxr
      unfold generateRrtrBlock at hrrtr
      obtain ⟨_, _, hrrtr⟩ := bind_eq_ok.mp hrrtr
      split at hrrtr
      · cases hrrtr
      · obtain ⟨ntp, hntp, hrrtr⟩ := bind_eq_ok.mp hrrtr
        cases hrrtr
        exact .inr ⟨_, s1, _, code, rfl, hb, rfl, hntp, hrep, rfl, fun Q hQ => hkeep Q hQ, he⟩
  · rw [if_pos hc] at h
    cases h
    exact .inl ⟨rfl, code, hb⟩

end

end Roc.Rtcp
