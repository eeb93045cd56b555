import RocToolkit.Netio.UdpPort

/-!
# RocToolkit.Netio.UdpClose

What `pending_packets_` counts, and how a port gets closed. In every state it is the number of packets queued,
of sends in flight and of writes under way, and of the sends that `uv_udp_send` refused (`Inv.pending`): those
are never taken off again. So a port on which no send was refused drains and closes in every fair run, and one
on which a send was refused never does (`drains_iff`).
-/

namespace Roc.Netio.UdpPort

open List

open Pc
open Pool (count weight)

open Port Pool

/-! ## Places -/

def isWrite : Pc → Bool
  | drain => false
  | _ => true

/-- A write that is counted by `pending_packets_` and has not queued its packet. -/
def isWriting : Pc → Bool
  | writeTry _ | writeDec | writePush _ => true
  | _ => false

/-- A write that has queued its packet and not yet asked for `write_sem_cb_`. -/
def isPushed : Pc → Bool
  | writeLink _ | writeWake => true
  | _ => false

def isDrain : Pc → Bool
  | drain => true
  | _ => false

theorem writing_write (calls : Multiset Pc) : count isWriting calls ≤ count isWrite calls :=
  count_le _ _ (fun pc => by cases pc <;> simp [isWriting, isWrite]) calls

theorem pushed_write (calls : Multiset Pc) : count isPushed calls ≤ count isWrite calls :=
  count_le _ _ (fun pc => by cases pc <;> simp [isPushed, isWrite]) calls

/-! ## The queue -/

section Queue
variable {p q : Nat} {queue rest : List (Nat × Bool)}

theorem tryPop_some (h : tryPop queue = some (p, rest)) : queue = (p, true) :: rest := by
  unfold tryPop at h
  split at h
  · cases h
  · split at h
    · split at h
      · cases h
        simp_all
      · cases h
    · split at h
      · cases h
        simp_all
      · cases h

theorem tryPop_none (h : tryPop queue = none) : queue = [] ∨ ∃ p, (p, false) ∈ queue := by
  unfold tryPop at h
  split at h
  · exact .inl rfl
  · rename_i p linked rest
    right
    split at h
    · split at h
      · cases h
      · exact ⟨p, by simp_all⟩
    · rename_i q linked' rest'
      split at h
      · cases h
      · rename_i hl
        cases linked with
        | false => exact ⟨p, by simp⟩
        | true =>
          cases linked' with
          | false => exact ⟨q, by simp⟩
          | true => simp at hl

@[simp] theorem length_link : (link p queue).length = queue.length := by
  simp [link]

theorem not_linked_of_link (h : (q, false) ∈ link p queue) : q ≠ p ∧ (q, false) ∈ queue := by
  simp only [link, mem_map, Prod.mk.injEq, Bool.or_eq_false_iff, beq_eq_false_iff_ne] at h
  obtain ⟨⟨q', linked⟩, hmem, rfl, rfl, hne⟩ := h
  exact ⟨hne, hmem⟩

end Queue

/-! ## The invariant -/

structure Queued (c : Calls) : Prop where
  loop : count isDrain c.calls = c.shared.looping.toNat
  pending : c.shared.pendingPackets = c.shared.outboundQueue.length + c.shared.inFlight.length +
    count isWriting c.calls + c.shared.failedSends
  linked : ∀ p, (p, false) ∈ c.shared.outboundQueue → writeLink p ∈ c.calls
  woken : c.shared.outboundQueue ≠ [] → c.shared.wakeup = true ∨ c.shared.looping = true ∨ 0 < count isPushed c.calls

structure Closing (c : Calls) : Prop where
  quiet : c.shared.closeHandler = true → count isWrite c.calls = 0
  want : c.shared.wantClose = c.shared.closeHandler
  semOpen : c.shared.outboundQueue ≠ [] ∨ 0 < count isWrite c.calls →
    c.shared.writeSemInitialized = true ∧ c.shared.writeSemClosing = false
  status : c.shared.closeStatus = none ↔ c.shared.closeHandler = false
  before : c.shared.closeStatus = none → c.shared.handleClosing = false ∧
    c.shared.writeSemClosing = false ∧ c.shared.closed = false ∧ c.shared.closeCompleted = 0
  completed : c.shared.closeStatus = some .completed → c.shared.handleInitialized = false ∧
    c.shared.writeSemInitialized = false ∧ c.shared.handleClosing = false ∧
    c.shared.writeSemClosing = false ∧ c.shared.closed = false ∧ c.shared.closeCompleted = 0
  started : c.shared.closeStatus = some .started →
    c.shared.closed = (!c.shared.handleInitialized && !c.shared.writeSemInitialized) ∧
    c.shared.closeCompleted = c.shared.closed.toNat ∧
    (c.shared.pendingPackets ≠ 0 → c.shared.handleClosing = false ∧ c.shared.writeSemClosing = false) ∧
    (c.shared.pendingPackets = 0 → (c.shared.handleInitialized = true → c.shared.handleClosing = true) ∧
      (c.shared.writeSemInitialized = true → c.shared.writeSemClosing = true))

/-- `async_close` is called while nobody writes. -/
def Quiet (c : Calls) : Label → Prop
  | .event .asyncClose => count isWrite c.calls = 0
  | _ => True

section
variable {luck : Bool} {s s' : Port} {pc : Pc} {next : Option Pc} {rest calls : Multiset Pc}

inductive Handled (s : Port) : Event → Port → Prop where
  | asyncClose {s' : Port} (h : s.asyncClose = some s') : Handled s .asyncClose s'
  | sent {packet : Nat} (hmem : packet ∈ s.inFlight) : Handled s (.sent packet) (s.sendCb packet)
  | handleClosed (hinit : s.handleInitialized = true) (hc : s.handleClosing = true) :
      Handled s .handleClosed { s with handleInitialized := false }.finishClose
  | writeSemClosed (hinit : s.writeSemInitialized = true) (hc : s.writeSemClosing = true) :
      Handled s .writeSemClosed { s with writeSemInitialized := false }.finishClose

theorem handle_some {e : Event} (he : handle s e = some s') : Handled s e s' := by
  cases e with
  | asyncClose =>
    simp only [handle] at he
    split at he
    · cases he
    · exact .asyncClose he
  | _ =>
    simp only [handle, Option.ite_none_right_eq_some, Bool.and_eq_true, decide_eq_true_eq] at he
    obtain ⟨hguard, he⟩ := he
    cases he
    first | exact .sent hguard.2 | exact .handleClosed hguard.1.2 hguard.2 | exact .writeSemClosed hguard.1.2 hguard.2

/-- One round of `write_sem_cb_`: the queue looks empty, or a packet is sent or dropped. -/
theorem drain_cases (ha : advance luck s drain = some (s', next)) :
    (tryPop s.outboundQueue = none ∧ s' = { s with looping := false } ∧ next = none) ∨
      ∃ packet queue inFlight failedSends, s.outboundQueue = (packet, true) :: queue ∧
        s' = { s with outboundQueue := queue, inFlight, failedSends } ∧ next = some drain ∧
        inFlight.length + failedSends = s.inFlight.length + s.failedSends + 1 ∧
        inFlight.length ≤ s.inFlight.length + 1 := by
  simp only [advance] at ha
  cases hpop : tryPop s.outboundQueue with
  | none =>
    rw [hpop] at ha
    cases ha
    exact .inl ⟨rfl, rfl, rfl⟩
  | some r =>
    rw [hpop] at ha
    refine .inr ⟨r.1, r.2, ?_⟩
    cases luck with
    | true =>
      cases ha
      exact ⟨_, _, tryPop_some hpop, rfl, rfl, by rw [length_cons]; omega, Nat.le_refl _⟩
    | false =>
      cases ha
      exact ⟨_, _, tryPop_some hpop, rfl, rfl, rfl, Nat.le_succ _⟩

theorem Queued.init {c : Calls} (h : Initial c) : Queued c := by
  obtain ⟨hcalls, _, _, _, _, _, hs⟩ := h
  constructor <;> simp [hcalls, hs]

theorem Closing.init {c : Calls} (h : Initial c) : Closing c := by
  obtain ⟨hcalls, _, _, _, _, _, hs⟩ := h
  constructor <;> simp [hcalls, hs]

theorem Queued.enter {e : Entry} (h : Queued ⟨s, calls⟩) (he : enter e s = some (s', pc)) :
    Queued ⟨s', pc ::ₘ calls⟩ := by
  obtain ⟨hloop, hpending, hlinked, hwoken⟩ := h
  cases e with
  | write =>
    obtain ⟨-, ⟨⟩⟩ := Option.ite_none_right_eq_some.mp he
    refine ⟨by simpa [isDrain] using hloop, by simpa [isWriting] using hpending, ?_, ?_⟩
    · intro p hp
      exact Multiset.mem_cons_of_mem (hlinked p hp)
    · simpa [isPushed] using hwoken
  | wake =>
    obtain ⟨hguard, ⟨⟩⟩ := Option.ite_none_right_eq_some.mp he
    simp only [Bool.and_eq_true, Bool.not_eq_true'] at hguard
    refine ⟨?_, by simpa [isWriting] using hpending, ?_, fun _ => .inr (.inl rfl)⟩
    · simp only [hguard.2, Bool.toNat_false] at hloop
      simp [isDrain, hloop]
    · intro p hp
      exact Multiset.mem_cons_of_mem (hlinked p hp)

theorem mem_resume {other : Pc} (h : other ∈ pc ::ₘ rest) (hne : other ≠ pc) : other ∈ resume next rest := by
  have hrest : other ∈ rest := (Multiset.mem_cons.mp h).resolve_left hne
  cases next with
  | none => exact hrest
  | some pc' => exact Multiset.mem_cons_of_mem hrest

theorem Queued.looping (h : Queued ⟨s, drain ::ₘ rest⟩) : s.looping = true := by
  have hloop := h.loop
  cases hl : s.looping with
  | true => rfl
  | false => simp [hl, isDrain] at hloop

theorem Queued.drain (h : Queued ⟨s, drain ::ₘ rest⟩) (ha : advance luck s drain = some (s', next)) :
    Queued ⟨s', resume next rest⟩ := by
  have hlooping := h.looping
  obtain ⟨hloop, hpending, hlinked, -⟩ := h
  have hlink : ∀ p, (p, false) ∈ s.outboundQueue → writeLink p ∈ rest := fun p hp =>
    (Multiset.mem_cons.mp (hlinked p hp)).resolve_left nofun
  rcases drain_cases ha with ⟨hpop, rfl, rfl⟩ | ⟨packet, queue, _, _, hqueue, rfl, rfl, hcount, -⟩
  · show Queued ⟨_, rest⟩
    refine ⟨by simpa [isDrain, hlooping] using hloop, by simpa [isWriting] using hpending, hlink, fun hne => ?_⟩
    -- the loop leaves a packet behind only while its writer is on the way to wake it up again
    obtain ⟨p, hp⟩ := (tryPop_none hpop).resolve_left hne
    obtain ⟨rest', rfl⟩ := Multiset.exists_cons_of_mem (hlink p hp)
    exact .inr (.inr (by simp [isPushed]))
  · show Queued ⟨_, drain ::ₘ rest⟩
    rw [hqueue] at hlink
    refine ⟨hloop, ?_, fun p hp => Multiset.mem_cons_of_mem (hlink p (mem_cons_of_mem _ hp)),
      fun _ => .inr (.inl hlooping)⟩
    simp [hqueue, isWriting] at hpending ⊢
    omega

theorem Queued.advance (h : Queued ⟨s, pc ::ₘ rest⟩) (ha : advance luck s pc = some (s', next)) :
    Queued ⟨s', resume next rest⟩ := by
  cases pc
  case drain => exact h.drain ha
  all_goals
    obtain ⟨hloop, hpending, hlinked, hwoken⟩ := h
    cases ha
    constructor
    case loop =>
      rw [count_resume]
      repeat' split
      all_goals simpa [isDrain, weight] using hloop
    case pending =>
      rw [count_resume]
      repeat' split
      all_goals simp [isWriting, weight] at hpending ⊢; omega
    case woken =>
      rw [count_resume]
      first
        | exact fun _ => .inr (.inr (Nat.add_pos_right _ Nat.one_pos))
        | exact fun _ => .inl rfl
        | (repeat' split) <;> simpa [isPushed, weight] using hwoken
  all_goals dsimp only at hlinked ⊢
  all_goals try exact fun p hp => mem_resume (hlinked p hp) nofun
  · intro p hp
    rcases mem_append.mp hp with hp | hp
    · exact mem_resume (hlinked p hp) nofun
    · cases mem_singleton.mp hp
      exact Multiset.mem_cons_self _ _
  · intro p hp
    obtain ⟨hne, hp⟩ := not_linked_of_link hp
    exact mem_resume (hlinked p hp) fun heq => hne (by cases heq; rfl)

theorem Queued.startClosing (h : Queued ⟨s, calls⟩) : Queued ⟨s.startClosing, calls⟩ := by
  unfold Port.startClosing
  split <;> exact ⟨h.loop, h.pending, h.linked, h.woken⟩

theorem Queued.finishClose (h : Queued ⟨s, calls⟩) : Queued ⟨s.finishClose, calls⟩ := by
  unfold Port.finishClose
  split <;> exact ⟨h.loop, h.pending, h.linked, h.woken⟩

theorem Queued.sent (h : Queued ⟨s, calls⟩) {packet : Nat} (hmem : packet ∈ s.inFlight) : Queued ⟨{ s with
      pendingPackets := s.pendingPackets - 1
      inFlight := s.inFlight.erase packet }, calls⟩ := by
  have hlen := length_erase_of_mem hmem
  have hpos : 0 < s.inFlight.length := length_pos_of_mem hmem
  have hpending := h.pending
  refine ⟨h.loop, ?_, h.linked, h.woken⟩
  simp only at hpending ⊢
  omega

theorem Queued.event {e : Event} (h : Queued ⟨s, calls⟩) (he : handle s e = some s') : Queued ⟨s', calls⟩ := by
  cases handle_some he with
  | asyncClose he =>
    have hsame : ∀ status, Queued ⟨{ s with closeHandler := true, wantClose := true, closeStatus := status }, calls⟩ :=
      fun _ => ⟨h.loop, h.pending, h.linked, h.woken⟩
    simp only [asyncClose] at he
    split at he
    · cases he
    · split at he
      · cases he
        exact hsame _
      · cases he
        split
        · exact (hsame _).startClosing
        · exact hsame _
  | sent hmem =>
    simp only [sendCb]
    split
    · exact (h.sent hmem).startClosing
    · exact h.sent hmem
  | handleClosed | writeSemClosed => exact Queued.finishClose ⟨h.loop, h.pending, h.linked, h.woken⟩

theorem Closing.enter {e : Entry} (h : Closing ⟨s, calls⟩) (he : enter e s = some (s', pc)) :
    Closing ⟨s', pc ::ₘ calls⟩ := by
  cases e with
  | write =>
    obtain ⟨hguard, ⟨⟩⟩ := Option.ite_none_right_eq_some.mp he
    simp only [Bool.and_eq_true, Bool.not_eq_true'] at hguard
    have hclose : s.closeHandler = false := h.want.symm.trans hguard.2
    refine ⟨?_, h.want, ?_, h.status, h.before, h.completed, h.started⟩
    · intro hc
      simp [hclose] at hc
    · exact fun _ => ⟨hguard.1, (h.before (h.status.mpr hclose)).2.1⟩
  | wake =>
    obtain ⟨-, ⟨⟩⟩ := Option.ite_none_right_eq_some.mp he
    refine ⟨?_, h.want, ?_, h.status, h.before, h.completed, h.started⟩
    · simpa [isWrite] using h.quiet
    · simpa [isWrite] using h.semOpen

theorem Closing.writing (h : Closing ⟨s, pc ::ₘ rest⟩) (hpc : isWrite pc = true)
    (hclose : s'.closeHandler = s.closeHandler) (hwant : s'.wantClose = s.wantClose)
    (hstatus : s'.closeStatus = s.closeStatus) (hhandle : s'.handleClosing = s.handleClosing)
    (hinit : s'.writeSemInitialized = s.writeSemInitialized)
    (hsem : s'.writeSemClosing = s.writeSemClosing) (hclosed : s'.closed = s.closed)
    (hcompleted : s'.closeCompleted = s.closeCompleted) : Closing ⟨s', calls⟩ := by
  have hwrites : 0 < count isWrite (pc ::ₘ rest) := by
    rw [count_cons, hpc]
    exact Nat.succ_pos _
  have hopen : s.closeHandler = false := by
    by_contra hc
    have := h.quiet (by simpa using hc)
    simp only at this
    omega
  have hnone : s.closeStatus = none := h.status.mpr hopen
  refine ⟨?_, ?_, ?_, ?_, ?_, ?_, ?_⟩
  · intro hc
    simp [hclose, hopen] at hc
  · rw [hwant, hclose]
    exact h.want
  · intro _
    rw [hinit, hsem]
    exact h.semOpen (.inr hwrites)
  · rw [hstatus, hclose]
    exact h.status
  · intro _
    rw [hhandle, hsem, hclosed, hcompleted]
    exact h.before hnone
  · intro hs
    simp [hstatus, hnone] at hs
  · intro hs
    simp [hstatus, hnone] at hs

theorem Closing.advance (h : Closing ⟨s, pc ::ₘ rest⟩) (ha : advance luck s pc = some (s', next)) :
    Closing ⟨s', resume next rest⟩ := by
  cases pc
  case drain =>
    have hquiet := h.quiet
    have hopen := h.semOpen
    simp only [count_cons, isWrite, Bool.toNat_false, Nat.add_zero] at hquiet hopen
    rcases drain_cases ha with ⟨-, rfl, rfl⟩ | ⟨packet, queue, _, _, hqueue, rfl, rfl, -⟩
    · exact ⟨hquiet, h.want, hopen, h.status, h.before, h.completed, h.started⟩
    · refine ⟨fun hc => ?_, h.want, fun _ => hopen (.inl (by simp [hqueue])), h.status, h.before, h.completed,
        h.started⟩
      rw [count_resume, hquiet hc]
      rfl
  all_goals cases ha; exact h.writing rfl rfl rfl rfl rfl rfl rfl rfl rfl

/-- With nothing pending and nobody writing, nothing is left that needs the semaphore. -/
theorem Queued.nothing_left (h : Queued ⟨s, calls⟩) (hpending : s.pendingPackets = 0)
    (hwrites : count isWrite calls = 0) : ¬ (s.outboundQueue ≠ [] ∨ 0 < count isWrite calls) := by
  have hp := h.pending
  simp only [hpending] at hp
  rintro (hne | hpos)
  · have := length_pos_iff.mpr hne
    omega
  · omega

/-- `start_closing_` on a port that has not been closed since `async_close`. -/
theorem Closing.begin (hquiet : count isWrite calls = 0) (hwant : s.wantClose = true)
    (hclose : s.closeHandler = true) (hq : Queued ⟨s, calls⟩) (hstatus : s.closeStatus = some .started)
    (hpending : s.pendingPackets = 0) (hclosed : s.closed = (!s.handleInitialized && !s.writeSemInitialized))
    (hcompleted : s.closeCompleted = s.closed.toNat) : Closing ⟨s.startClosing, calls⟩ := by
  have hleft := hq.nothing_left hpending hquiet
  unfold startClosing
  split
  · rename_i hfull
    simp only [fullyClosed, ← hclosed, Bool.or_self] at hfull
    refine ⟨fun _ => hquiet, hwant.trans hclose.symm, fun h => absurd h hleft, ?_, ?_, ?_, ?_⟩
    · simp [hstatus, hclose]
    · simp [hstatus]
    · simp [hstatus]
    · intro _
      refine ⟨hclosed, hcompleted, fun h => absurd hpending h, fun _ => ?_⟩
      rw [hfull] at hclosed
      simp_all
  · refine ⟨fun _ => hquiet, hwant.trans hclose.symm, fun h => absurd h hleft, ?_, ?_, ?_, ?_⟩
    · simp [hstatus, hclose]
    · simp [hstatus]
    · simp [hstatus]
    · intro _
      exact ⟨hclosed, hcompleted, fun h => absurd hpending h, fun _ =>
        ⟨fun hi => (Bool.or_eq_true _ _).mpr (.inr hi), fun hi => (Bool.or_eq_true _ _).mpr (.inr hi)⟩⟩

theorem Closing.asyncClose (h : Closing ⟨s, calls⟩) (hq : Queued ⟨s, calls⟩)
    (hquiet : count isWrite calls = 0) (he : s.asyncClose = some s') : Closing ⟨s', calls⟩ := by
  unfold Port.asyncClose at he
  split at he
  · cases he
  · rename_i hopen
    have hnone : s.closeStatus = none := h.status.mpr (by simpa using hopen)
    obtain ⟨hhandle, hsem, hclosed, hcompleted⟩ := h.before hnone
    dsimp only at hhandle hsem hclosed hcompleted
    dsimp only at he
    split at he
    · rename_i hfull
      cases he
      simp only [Port.fullyClosed, hclosed, Bool.or_false, Bool.and_eq_true, Bool.not_eq_true'] at hfull
      refine ⟨fun _ => hquiet, rfl, h.semOpen, by simp, by simp, ?_, by simp⟩
      exact fun _ => ⟨hfull.1, hfull.2, hhandle, hsem, hclosed, hcompleted⟩
    · rename_i hfull
      have hclosed' : s.closed = (!s.handleInitialized && !s.writeSemInitialized) := by
        simp only [Port.fullyClosed, hclosed, Bool.or_false, Bool.not_eq_true] at hfull
        rw [hclosed, hfull]
      cases he
      split
      · rename_i hpending
        exact Closing.begin hquiet rfl rfl ⟨hq.loop, hq.pending, hq.linked, hq.woken⟩ rfl hpending hclosed'
          (by simp only [hcompleted, hclosed, Bool.toNat_false])
      · rename_i hpending
        refine ⟨fun _ => hquiet, rfl, h.semOpen, by simp, by simp, by simp, fun _ => ?_⟩
        exact ⟨hclosed', by simp only [hcompleted, hclosed, Bool.toNat_false], fun _ => ⟨hhandle, hsem⟩,
          fun h0 => absurd h0 hpending⟩

theorem status_cases (s : Port) :
    s.closeStatus = none ∨ s.closeStatus = some .completed ∨ s.closeStatus = some .started := by
  rcases s.closeStatus with _ | _ | _ <;> simp

section
variable (h : Closing ⟨s, calls⟩)
include h

theorem Closing.sent (hq : Queued ⟨s, calls⟩) {packet : Nat}
    (hmem : packet ∈ s.inFlight) : Closing ⟨s.sendCb packet, calls⟩ := by
  have hpending : s.pendingPackets ≠ 0 := by
    have hp := hq.pending
    have := length_pos_of_mem hmem
    simp only at hp
    omega
  unfold sendCb
  dsimp only
  split
  · rename_i hlast
    simp only [Bool.and_eq_true, decide_eq_true_eq] at hlast
    have hclose : s.closeHandler = true := h.want.symm.trans hlast.2
    have hquiet := h.quiet hclose
    rcases status_cases s with hstatus | hstatus | hstatus
    · have := h.status.mp hstatus
      simp_all
    · -- there was nothing to close
      obtain ⟨h1, h2, h3, h4, h5, h6⟩ := h.completed hstatus
      dsimp only at h1 h2
      have hfull : fullyClosed { s with
          pendingPackets := s.pendingPackets - 1
          inFlight := s.inFlight.erase packet } = true := by
        simp only [fullyClosed, h1, h2, Bool.not_false, Bool.and_self, Bool.true_or]
      rw [startClosing, if_pos hfull]
      exact ⟨h.quiet, h.want, h.semOpen, h.status, h.before, h.completed, by simp [hstatus]⟩
    · obtain ⟨hclosed, hcompleted, -, -⟩ := h.started hstatus
      exact Closing.begin hquiet hlast.2 hclose (hq.sent hmem) hstatus hlast.1 hclosed hcompleted
  · rename_i hlast
    simp only [Bool.and_eq_true, decide_eq_true_eq, not_and] at hlast
    refine ⟨h.quiet, h.want, h.semOpen, h.status, h.before, h.completed, fun hstatus => ?_⟩
    obtain ⟨hclosed, hcompleted, hne, -⟩ := h.started hstatus
    refine ⟨hclosed, hcompleted, fun _ => hne hpending, fun h0 => absurd ?_ (hlast h0)⟩
    have hclose : s.closeHandler ≠ false := fun hc => by
      have := h.status.mpr hc
      simp_all
    rw [h.want]
    simpa using hclose

/-- A handle is closed only on the way that `async_close` has started, with nothing pending. -/
theorem Closing.closing (hc : s.handleClosing = true ∨ s.writeSemClosing = true) :
    s.closeStatus = some .started ∧ s.pendingPackets = 0 ∧ s.closeHandler = true := by
  rcases status_cases s with hstatus | hstatus | hstatus
  · have := h.before hstatus
    simp_all
  · have := h.completed hstatus
    simp_all
  · refine ⟨hstatus, ?_, ?_⟩
    · by_contra hp
      have := (h.started hstatus).2.2.1 hp
      simp_all
    · by_contra hopen
      have := h.status.mpr (by simpa using hopen)
      simp_all

theorem Closing.finishClose (hq : Queued ⟨s, calls⟩) (hc : s.handleClosing = true ∨ s.writeSemClosing = true)
    (hopen : s.handleInitialized = true ∨ s.writeSemInitialized = true) {handle sem : Bool}
    (hh : handle = true → s.handleInitialized = true) (hw : sem = true → s.writeSemInitialized = true) :
    Closing ⟨{ s with handleInitialized := handle, writeSemInitialized := sem }.finishClose, calls⟩ := by
  obtain ⟨hstatus, hpending, hclose⟩ := h.closing hc
  obtain ⟨hclosed, hcompleted, -, hflags⟩ := h.started hstatus
  obtain ⟨hhandle, hsem⟩ := hflags hpending
  have hleft := hq.nothing_left hpending (h.quiet hclose)
  dsimp only at hclosed hcompleted hhandle hsem
  have hnot : s.closed = false := by rcases hopen with ho | ho <;> simp [hclosed, ho]
  unfold Port.finishClose
  split <;> rename_i hmore
  all_goals refine ⟨h.quiet, h.want, fun h0 => absurd h0 hleft, h.status, by simp [hstatus], by simp [hstatus],
      fun _ => ⟨?_, ?_, fun h0 => absurd hpending h0, fun _ =>
        ⟨fun hi => hhandle (hh hi), fun hi => hsem (hw hi)⟩⟩⟩
  · cases handle <;> simp_all
  · exact hcompleted
  · simp_all
  · simp [hcompleted, hnot]

theorem Closing.event {e : Event} (hq : Queued ⟨s, calls⟩)
    (hquiet : Quiet ⟨s, calls⟩ (.event e)) (he : handle s e = some s') : Closing ⟨s', calls⟩ := by
  cases handle_some he with
  | asyncClose he => exact h.asyncClose hq hquiet he
  | sent hmem => exact h.sent hq hmem
  | handleClosed hinit hc => exact h.finishClose hq (.inl hc) (.inl hinit) nofun id
  | writeSemClosed hinit hc => exact h.finishClose hq (.inr hc) (.inr hinit) id nofun

end
end

structure Inv (c : Calls) : Prop where
  queued : Queued c
  closing : Closing c

variable {c : Calls}

theorem Inv.step {c' : Calls} {l : Label} (h : Inv c) (hquiet : Quiet c l) (hs : Step c l c') : Inv c' := by
  cases hs with
  | call hs =>
    cases hs with
    | enter he => exact ⟨h.queued.enter he, h.closing.enter he⟩
    | advance ha => exact ⟨h.queued.advance ha, h.closing.advance ha⟩
  | event he => exact ⟨h.queued.event he, h.closing.event h.queued hquiet he⟩

/-! ## Fair runs -/

def OnLoop (_ : Unit) : Label → Prop
  | .call (.enter .wake) | .call (.advance _ drain) => True
  | .event (.sent _) | .event .handleClosed | .event .writeSemClosed => True
  | _ => False

/-- What there is left to do: each packet is popped and answered, each wake-up empties the queue once,
and both handles are closed. -/
def work (c : Calls) : Nat := 2 * c.shared.outboundQueue.length + c.shared.inFlight.length + 2 * c.shared.wakeup.toNat +
    c.shared.looping.toNat + c.shared.handleInitialized.toNat + c.shared.writeSemInitialized.toNat

def Over (c : Calls) : Prop := (c.shared.closeHandler = true ∧ c.shared.fullyClosed = true) ∨ 0 < c.shared.failedSends

/-- Between `async_close` and the end of the port. -/
structure Ending (c : Calls) : Prop extends Inv c where
  asked : c.shared.closeHandler = true

section
variable {s s' : Port} {calls : Multiset Pc} {c c' : Calls}

theorem Ending.possible (h : Ending c) (hover : ¬ Over c) : ∃ l c', OnLoop () l ∧ Step c l c' := by
  obtain ⟨s, calls⟩ := c
  obtain ⟨⟨hq, hc⟩, hasked⟩ := h
  obtain ⟨hopen, hfailed⟩ := not_or.mp hover
  have hfull := not_and.mp hopen hasked
  have hwrites := hc.quiet hasked
  dsimp only at hasked hfull hfailed hwrites
  by_cases hlooping : s.looping = true
  · -- the loop is in `write_sem_cb_`
    have hdrain : drain ∈ calls := by
      have hloop := hq.loop
      simp only [hlooping, Bool.toNat_true] at hloop
      obtain ⟨pc, hmem, hpc⟩ := Multiset.countP_pos.mp (hloop ▸ Nat.one_pos : 0 < count isDrain calls)
      cases pc <;> first | exact hmem | cases hpc
    obtain ⟨rest, rfl⟩ := Multiset.exists_cons_of_mem hdrain
    have hstep : ∃ s' next, advance true s drain = some (s', next) := by
      simp only [advance]
      split <;> exact ⟨_, _, rfl⟩
    obtain ⟨s', next, ha⟩ := hstep
    exact ⟨.call (.advance true drain), _, trivial, .call (.advance ha)⟩
  · have hidle : s.looping = false := by simpa using hlooping
    by_cases hpending : s.pendingPackets = 0
    · -- nothing is pending, so the handles are being closed
      rcases status_cases s with hstatus | hstatus | hstatus
      · have := hc.status.mp hstatus
        simp_all
      · obtain ⟨hh, hw, -⟩ := hc.completed hstatus
        dsimp only at hh hw
        simp [fullyClosed, hh, hw] at hfull
      · obtain ⟨hclosed, -, -, hflags⟩ := hc.started hstatus
        obtain ⟨hhandle, hsem⟩ := hflags hpending
        dsimp only at hhandle hsem
        by_cases hinit : s.handleInitialized = true
        · exact ⟨.event .handleClosed, ⟨_, calls⟩, trivial,
            .event (by simp only [handle, hidle, hinit, hhandle hinit]; rfl)⟩
        · by_cases hinit' : s.writeSemInitialized = true
          · exact ⟨.event .writeSemClosed, ⟨_, calls⟩, trivial,
              .event (by simp only [handle, hidle, hinit', hsem hinit']; rfl)⟩
          · simp [fullyClosed, hinit, hinit'] at hfull
    · -- a packet is in flight, or queued and about to be popped
      cases hflight : s.inFlight with
      | cons packet rest =>
        exact ⟨.event (.sent packet), ⟨_, calls⟩, trivial,
          .event (by simp only [handle, hidle, hflight, mem_cons_self]; rfl)⟩
      | nil =>
        have hwriting := writing_write calls
        have hqueue : s.outboundQueue ≠ [] := by
          intro hnil
          have hp := hq.pending
          simp only [hnil, hflight, length_nil] at hp
          omega
        have hpushed := pushed_write calls
        have hwoken : s.wakeup = true := by
          rcases hq.woken hqueue with hw | hl | hp
          · exact hw
          · exact absurd hl hlooping
          · dsimp only at hp
            omega
        obtain ⟨hinit, hclosing⟩ := hc.semOpen (.inl hqueue)
        dsimp only at hinit hclosing
        exact ⟨.call (.enter .wake), ⟨_, drain ::ₘ calls⟩, trivial,
          .call (.enter (by simp only [enter, hwoken, hinit, hclosing, hidle]; rfl))⟩

theorem startClosing_frame (s : Port) (calls : Multiset Pc) :
    s.startClosing.closeHandler = s.closeHandler ∧ work ⟨s.startClosing, calls⟩ = work ⟨s, calls⟩ := by
  unfold startClosing
  split <;> exact ⟨rfl, rfl⟩

theorem finishClose_frame (s : Port) (calls : Multiset Pc) :
    s.finishClose.closeHandler = s.closeHandler ∧ work ⟨s.finishClose, calls⟩ = work ⟨s, calls⟩ := by
  unfold finishClose
  split <;> exact ⟨rfl, rfl⟩

theorem work_event {e : Event} (hasked : s.closeHandler = true) (he : handle s e = some s') :
    s'.closeHandler = true ∧ work ⟨s', calls⟩ < work ⟨s, calls⟩ ∧ e ≠ .asyncClose := by
  cases handle_some he with
  | asyncClose he => simp [asyncClose, hasked] at he
  | @sent packet hmem =>
    have hlen := length_erase_of_mem hmem
    have hpos := length_pos_of_mem hmem
    have hless : work ⟨{ s with
        pendingPackets := s.pendingPackets - 1
        inFlight := s.inFlight.erase packet }, calls⟩ < work ⟨s, calls⟩ := by
      simp only [work]
      omega
    unfold sendCb
    dsimp only
    split
    · have hframe := startClosing_frame { s with
        pendingPackets := s.pendingPackets - 1
        inFlight := s.inFlight.erase packet } calls
      exact ⟨hframe.1.trans hasked, hframe.2.trans_lt hless, nofun⟩
    · exact ⟨hasked, hless, nofun⟩
  | handleClosed hinit | writeSemClosed hinit =>
    refine ⟨(finishClose_frame _ calls).1.trans hasked, ?_, nofun⟩
    rw [(finishClose_frame _ calls).2]
    simp only [work, hinit, Bool.toNat_true, Bool.toNat_false]
    omega

theorem Ending.moves {l : Label} (h : Ending c) (hs : Step c l c') : Ending c' ∧ work c' < work c := by
  obtain ⟨hinv, hasked⟩ := h
  suffices hsuff : c'.shared.closeHandler = true ∧ work c' < work c ∧ Quiet c l from
    ⟨⟨hinv.step hsuff.2.2 hs, hsuff.1⟩, hsuff.2.1⟩
  have hwrites := hinv.closing.quiet hasked
  cases hs with
  | event he =>
    obtain ⟨hclose, hless, hne⟩ := work_event hasked he
    refine ⟨hclose, hless, ?_⟩
    rename_i e
    cases e with
    | asyncClose => exact absurd rfl hne
    | _ => trivial
  | call hs =>
    refine and_assoc.mp ⟨?_, trivial⟩
    cases hs with
    | @enter s s' e pc calls he =>
      cases e with
      | write =>
        have hwant := hinv.closing.want
        dsimp only at hwant hasked
        simp [enter, hwant, hasked] at he
      | wake =>
        simp only [enter] at he
        split at he
        · rename_i hguard
          simp only [Bool.and_eq_true, Bool.not_eq_true'] at hguard
          cases he
          refine ⟨hasked, ?_⟩
          simp only [work, hguard.1.1.1, hguard.2, Bool.toNat_true, Bool.toNat_false]
          omega
        · cases he
    | @advance s s' luck pc next rest ha =>
      have hpc : isWrite pc = false := by
        cases hpc : isWrite pc with
        | false => rfl
        | true => simp [hpc] at hwrites
      cases pc with
      | drain =>
        have hlooping := hinv.queued.looping
        rcases drain_cases ha with ⟨-, rfl, rfl⟩ | ⟨_, _, _, _, hqueue, rfl, rfl, -, hle⟩
        · refine ⟨hasked, ?_⟩
          simp only [work, hlooping, Bool.toNat_true, Bool.toNat_false]
          omega
        · refine ⟨hasked, ?_⟩
          simp only [work, hqueue, length_cons]
          omega
      | _ => cases hpc

theorem ending_progress : Execution.Progress Step (fun _ _ => True) OnLoop Ending Over work fun _ => () where
  possible _ h hover := h.possible hover
  moves _ _ _ h _ _ hs := .inr ⟨(h.moves hs).1, .inl (h.moves hs).2⟩

end

/-- A port drains and closes: the counter is what is queued, in flight or being written; after
`async_close` the port gets closed, with one call of the handler if the call was to come; no more than
one call is ever made; and handles are closed only when no send is left. -/
structure Drains (e : Execution Initial Step) : Prop where
  accounted : ∀ n, (e.state n).shared.pendingPackets = (e.state n).shared.outboundQueue.length +
    (e.state n).shared.inFlight.length + count isWriting (e.state n).calls
  closes : ∀ n, (e.state n).shared.closeHandler = true → ∃ m, n ≤ m ∧
    (e.state m).shared.fullyClosed = true ∧
    (e.state m).shared.closeCompleted = if (e.state m).shared.closeStatus = some .started then 1 else 0
  once : ∀ n, (e.state n).shared.closeCompleted ≤ 1
  empty : ∀ n, (e.state n).shared.handleClosing = true ∨ (e.state n).shared.writeSemClosing = true →
    (e.state n).shared.outboundQueue = [] ∧ (e.state n).shared.inFlight = []

theorem Closing.completed_le (h : Closing c) : c.shared.closeCompleted ≤ 1 := by
  rcases status_cases c.shared with hstatus | hstatus | hstatus
  · rw [(h.before hstatus).2.2.2]
    exact Nat.zero_le 1
  · rw [(h.completed hstatus).2.2.2.2.2]
    exact Nat.zero_le 1
  · rw [(h.started hstatus).2.1]
    cases c.shared.closed <;> decide

theorem Inv.empty (h : Inv c) (hc : c.shared.handleClosing = true ∨ c.shared.writeSemClosing = true) :
    c.shared.outboundQueue = [] ∧ c.shared.inFlight = [] := by
  obtain ⟨-, hpending, -⟩ := h.closing.closing hc
  have hp := h.queued.pending
  rw [hpending] at hp
  exact ⟨length_eq_zero_iff.mp (by omega), length_eq_zero_iff.mp (by omega)⟩

theorem Inv.closed (h : Inv c) (hasked : c.shared.closeHandler = true) (hfull : c.shared.fullyClosed = true) :
    c.shared.closeCompleted = if c.shared.closeStatus = some .started then 1 else 0 := by
  rcases status_cases c.shared with hstatus | hstatus | hstatus
  · have := h.closing.status.mp hstatus
    simp_all
  · rw [hstatus, (h.closing.completed hstatus).2.2.2.2.2]
    rfl
  · obtain ⟨hclosed, hcompleted, -⟩ := h.closing.started hstatus
    rw [fullyClosed, ← hclosed, Bool.or_self] at hfull
    rw [hstatus, hcompleted, hfull]
    rfl

/-- In every fair run in which nobody writes to a port that is being closed, the port drains and closes
if and only if no send is refused. -/
theorem drains_iff (e : Execution Initial Step) (hfair : e.Fair OnLoop)
    (hquiet : ∀ n l, e.action n = some l → Quiet (e.state n) l) :
    Drains e ↔ ∀ n, (e.state n).shared.failedSends = 0 := by
  have hinv : ∀ n, Inv (e.state n) :=
    e.invariant (fun _ h => ⟨.init h, .init h⟩) (fun _ _ _ h hq hs => h.step hq hs) hquiet
  constructor
  · intro h n
    have hp := (hinv n).queued.pending
    have ha := h.accounted n
    omega
  · intro hnone
    refine ⟨?_, ?_, fun n => (hinv n).closing.completed_le, fun n => (hinv n).empty⟩
    · intro n
      have hp := (hinv n).queued.pending
      rw [hnone n] at hp
      simpa using hp
    · intro n hasked
      obtain ⟨m, hm, ⟨hasked, hfull⟩ | hfailed⟩ := ending_progress.eventually hfair
        (fun _ _ _ => trivial) ⟨hinv n, hasked⟩
      · exact ⟨m, hm, hfull, (hinv m).closed hasked hfull⟩
      · have := hnone m
        omega

def Dead (s : Port) : Prop :=
  enter .write s = none ∧ enter .wake s = none ∧ handle s .asyncClose = none ∧ s.inFlight = [] ∧
    handle s .handleClosed = none ∧ handle s .writeSemClosed = none

instance (s : Port) : Decidable (Dead s) := by
  unfold Dead
  infer_instance

theorem not_step {s : Port} {l : Label} (h : Dead s) : ¬ Step ⟨s, 0⟩ l c := by
  obtain ⟨hwrite, hwake, hclose, hflight, hhandle, hsem⟩ := h
  intro hs
  generalize hc : (⟨s, 0⟩ : Calls) = c0 at hs
  cases hs with
  | call hs =>
    subst hc
    obtain ⟨e, s', pc, -, he⟩ := hs.enter_of_zero
    cases e <;> simp_all
  | event he =>
    cases hc
    rename_i e
    cases e <;> simp_all [handle]

theorem Step.alone {luck : Bool} {s s' : Port} {pc : Pc} (next : Option Pc) (h : advance luck s pc = some (s', next)) :
    Step ⟨s, pc ::ₘ 0⟩ (.call (.advance luck pc)) ⟨s', resume next 0⟩ := .call (.advance h)

/-- A port with one packet that is counted. -/
def counted : Port := { numPackets := 1, pendingPackets := 1 }

/-- A port that was asked to close when its packet was sent. -/
def closing : Port :=
  { numPackets := 1, wantClose := true, closeHandler := true, handleClosing := true, writeSemClosing := true
    closeStatus := some .started }

/-- A packet is written, queued and sent; then the port is closed. -/
def sendAndClose : Execution Initial Step where
  state
    | 0 => ⟨{}, 0⟩
    | 1 => ⟨{ numPackets := 1 }, writeInc 0 ::ₘ 0⟩
    | 2 => ⟨counted, writeTry 0 ::ₘ 0⟩
    | 3 => ⟨counted, writePush 0 ::ₘ 0⟩
    | 4 => ⟨{ counted with outboundQueue := [(0, false)] }, writeLink 0 ::ₘ 0⟩
    | 5 => ⟨{ counted with outboundQueue := [(0, true)] }, writeWake ::ₘ 0⟩
    | 6 => ⟨{ counted with outboundQueue := [(0, true)], wakeup := true }, 0⟩
    | 7 => ⟨{ counted with outboundQueue := [(0, true)], looping := true }, drain ::ₘ 0⟩
    | 8 => ⟨{ counted with inFlight := [0], looping := true }, drain ::ₘ 0⟩
    | 9 => ⟨{ counted with inFlight := [0] }, 0⟩
    | 10 => ⟨{ numPackets := 1 }, 0⟩
    | 11 => ⟨closing, 0⟩
    | 12 => ⟨{ closing with handleInitialized := false }, 0⟩
    | _ => ⟨{ closing with handleInitialized := false, writeSemInitialized := false, closed := true, closeCompleted := 1 },
        0⟩
  action
    | 0 => some (.call (.enter .write))
    | 1 => some (.call (.advance true (writeInc 0)))
    | 2 => some (.call (.advance true (writeTry 0)))
    | 3 => some (.call (.advance true (writePush 0)))
    | 4 => some (.call (.advance true (writeLink 0)))
    | 5 => some (.call (.advance true writeWake))
    | 6 => some (.call (.enter .wake))
    | 7 | 8 => some (.call (.advance true drain))
    | 9 => some (.event (.sent 0))
    | 10 => some (.event .asyncClose)
    | 11 => some (.event .handleClosed)
    | 12 => some (.event .writeSemClosed)
    | _ => none
  start := ⟨rfl, false, true, true, false, false, rfl⟩
  next
    | 0 | 6 => .call (.enter rfl)
    | 1 => .alone (some (writeTry 0)) rfl
    | 2 => .alone (some (writePush 0)) rfl
    | 3 => .alone (some (writeLink 0)) rfl
    | 4 => .alone (some writeWake) rfl
    | 7 => .alone (some drain) rfl
    | 5 | 8 => .alone none rfl
    | 9 => .event (by decide)
    | 10 | 11 | 12 => .event rfl
    | _ + 13 => rfl

theorem drains_sendAndClose : Drains sendAndClose := by
  refine (drains_iff sendAndClose ?_ ?_).mpr ?_
  · intro _ n
    refine ⟨n + 13, by omega, .inl ?_⟩
    rintro ⟨l, c', -, hs⟩
    exact not_step (by decide) hs
  · intro n l hl
    match n, hl with
    | 0, hl | 1, hl | 2, hl | 3, hl | 4, hl | 5, hl | 6, hl | 7, hl | 8, hl | 9, hl | 11, hl | 12, hl =>
      cases hl
      trivial
    | 10, hl =>
      cases hl
      rfl
  · intro n
    match n with
    | 0 | 1 | 2 | 3 | 4 | 5 | 6 | 7 | 8 | 9 | 10 | 11 | 12 | _ + 13 => rfl

theorem reaches_runCall (choices : List Bool) {s s' : Port} {pc : Pc} {next : Option Pc}
    {rest : Multiset Pc} (h : Reaches Initial Step Quiet ⟨s, pc ::ₘ rest⟩)
    (hrun : runCall advance choices s pc = some (s', next)) :
    Reaches Initial Step Quiet ⟨s', resume next rest⟩ :=
  runCall_keeps (I := fun s next => Reaches Initial Step Quiet ⟨s, resume next rest⟩)
    (fun luck _ pc _ _ hs ha => hs.step (a := .call (.advance luck pc)) trivial (.call (.advance ha))) h hrun

/-- The send of the only packet was refused. -/
def refused : Port := { pendingPackets := 1, numPackets := 1, failedSends := 1 }

theorem reaches_refused : Reaches Initial Step Quiet ⟨refused, 0⟩ := by
  have h₀ : Reaches Initial Step Quiet ⟨{}, 0⟩ := .start ⟨rfl, false, true, true, false, false, rfl⟩
  have hwrite := h₀.step (a := Label.call (.enter .write)) trivial (.call (.enter rfl))
  have hqueued := reaches_runCall [true, true, true, true, true] hwrite rfl
  have hwake := hqueued.step (a := Label.call (.enter .wake)) trivial (.call (.enter rfl))
  exact reaches_runCall [false, true] hwake rfl

/-- The one packet of this port is refused by `uv_udp_send`; then the port is asked to close. It never
does: the packet is still counted, and nothing is left that could take it off. -/
theorem refusedSend_stuck : ∃ s : Port, Reaches Initial Step Quiet ⟨s, 0⟩ ∧
    s.closeStatus = some .started ∧ s.fullyClosed = false ∧ s.pendingPackets = 1 ∧
    s.outboundQueue = [] ∧ s.inFlight = [] ∧ ∀ l c, ¬ Step ⟨s, 0⟩ l c := by
  have hclose := reaches_refused.step (a := Label.event .asyncClose) rfl (.event rfl)
  exact ⟨_, hclose, rfl, rfl, rfl, rfl, rfl, fun _ _ => not_step (by decide)⟩

/-- Refused sends included: what `pending_packets_` counts, who sees to the packets that are queued, and that the
handles are closed last and the close handler is called at most once. -/
theorem accounted_of_reaches (h : Reaches Initial Step Quiet c) :
    c.shared.pendingPackets = c.shared.outboundQueue.length + c.shared.inFlight.length +
      count isWriting c.calls + c.shared.failedSends ∧
    (c.shared.outboundQueue ≠ [] →
      c.shared.wakeup = true ∨ c.shared.looping = true ∨ 0 < count isPushed c.calls) ∧
    (c.shared.handleClosing = true ∨ c.shared.writeSemClosing = true →
      c.shared.outboundQueue = [] ∧ c.shared.inFlight = []) ∧
    c.shared.closeCompleted ≤ 1 := by
  have hinv : Inv c := h.invariant (fun _ hi => ⟨.init hi, .init hi⟩) fun _ _ _ hi hq hs => hi.step hq hs
  exact ⟨hinv.queued.pending, hinv.queued.woken, hinv.empty, hinv.closing.completed_le⟩

theorem accounted_refused : ∃ s : Port, s.failedSends = 1 ∧ s.outboundQueue = [] ∧
    s.pendingPackets = s.outboundQueue.length + s.inFlight.length + 0 + s.failedSends :=
  ⟨refused, rfl, rfl, (accounted_of_reaches reaches_refused).1⟩

end Roc.Netio.UdpPort
