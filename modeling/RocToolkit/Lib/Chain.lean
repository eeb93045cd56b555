import Mathlib.Data.List.Forall2
import RocToolkit.Lib.Loop

/-!
# RocToolkit.Lib.Chain

Records laid out one after another in a buffer, each of which says where the next one begins, and
iterators that walk over them. A `Chain` is what the buffer holds; `stops` and `spoils` say what a
walk should report. A `Walker` is an iterator given by one round of its loop, together with the
cases of that round; its rules give the whole walk.
-/

/-- The records of a buffer of `size` bytes: `len p` is the length of the record at `p`, if there is
a complete one. A walk stops at the records of `stop`; of the others, those of `bad` are errors. -/
structure Chain where
  size : Nat
  len : Nat → Option Nat
  stop : Nat → Bool
  bad : Nat → Bool
  len_pos : ∀ {p n : Nat}, len p = some n → 0 < n
  len_fits : ∀ {p n : Nat}, len p = some n → p + n ≤ size

namespace Chain

section
variable (c : Chain)

/-- The records from `p` on, and the position after the last. -/
def scan : Nat → Nat → List Nat × Nat
  | 0, p => ([], p)
  | fuel + 1, p =>
    match c.len p with
    | none => ([], p)
    | some n => (p :: (scan fuel (p + n)).1, (scan fuel (p + n)).2)

/-- `scan` with enough fuel. -/
def scanFrom (p : Nat) : List Nat × Nat := c.scan (c.size + 1 - p) p

/-- The records a walk from `p` stops at. -/
def stops (p : Nat) : List Nat := (c.scanFrom p).1.filter c.stop

/-- Whether a walk from `p` meets an error: a bad record, or bytes after the last record. -/
def spoils (p : Nat) : Bool := (c.scanFrom p).1.any (fun q => !c.stop q && c.bad q) || (c.scanFrom p).2 != c.size

end

section
variable {c : Chain} {p n : Nat}

theorem scan_fuel : ∀ (f g p : Nat), c.size < f + p → c.size < g + p → c.scan f p = c.scan g p := by
  intro f
  induction f with
  | zero =>
    intro g p hf hg
    have hnone : c.len p = none := by
      cases hl : c.len p with
      | none => rfl
      | some n => have := c.len_fits hl; omega
    cases g with
    | zero => rfl
    | succ g => simp [scan, hnone]
  | succ f ih =>
    intro g p hf hg
    cases hl : c.len p with
    | none => cases g <;> simp [scan, hl]
    | some n =>
      have hpos := c.len_pos hl
      have hfit := c.len_fits hl
      obtain ⟨g, rfl⟩ : ∃ g', g = g' + 1 := ⟨g - 1, by omega⟩
      simp only [scan, hl]
      rw [ih g _ (by omega) (by omega)]

theorem scanFrom_some (h : c.len p = some n) :
    c.scanFrom p = (p :: (c.scanFrom (p + n)).1, (c.scanFrom (p + n)).2) := by
  have hpos := c.len_pos h
  have hfit := c.len_fits h
  have hfuel : c.size + 1 - p = (c.size - p) + 1 := by omega
  rw [scanFrom, hfuel]
  simp only [scan, h]
  rw [scan_fuel _ (c.size + 1 - (p + n)) _ (by omega) (by omega)]
  rfl

theorem scanFrom_none (h : c.len p = none) : c.scanFrom p = ([], p) := by
  unfold scanFrom
  cases c.size + 1 - p <;> simp [scan, h]

theorem stops_none (h : c.len p = none) : c.stops p = [] := by
  simp [stops, scanFrom_none h]

theorem stops_stop (h : c.len p = some n) (hs : c.stop p = true) : c.stops p = p :: c.stops (p + n) := by
  simp [stops, scanFrom_some h, hs]

theorem stops_skip (h : c.len p = some n) (hs : c.stop p = false) : c.stops p = c.stops (p + n) := by
  simp [stops, scanFrom_some h, hs]

theorem spoils_none (h : c.len p = none) : c.spoils p = (p != c.size) := by
  simp [spoils, scanFrom_none h]

theorem spoils_stop (h : c.len p = some n) (hs : c.stop p = true) : c.spoils p = c.spoils (p + n) := by
  simp [spoils, scanFrom_some h, hs]

theorem spoils_skip (h : c.len p = some n) (hs : c.stop p = false) : c.spoils p = (c.bad p || c.spoils (p + n)) := by
  simp [spoils, scanFrom_some h, hs, Bool.or_assoc]

end

/-! ## Chains that are laid out -/

/-- The records `bs` fill the buffer from `p` on: a walk stops at each of them, and `P` relates each
to its position. -/
def LaidOut {β : Type} (c : Chain) (len : β → Nat) (P : Nat → β → Prop) : Nat → List β → Prop
  | p, [] => p = c.size ∧ c.len p = none
  | p, b :: bs => c.len p = some (len b) ∧ c.stop p = true ∧ P p b ∧ LaidOut c len P (p + len b) bs

section
variable {c : Chain} {β : Type} {len : β → Nat} {P : Nat → β → Prop}

theorem LaidOut.stops : ∀ {bs : List β} {p : Nat}, c.LaidOut len P p bs → List.Forall₂ P (c.stops p) bs := by
  intro bs
  induction bs with
  | nil =>
    rintro p ⟨-, hnone⟩
    rw [stops_none hnone]
    exact .nil
  | cons b bs ih =>
    rintro p ⟨hl, hs, hp, hrest⟩
    rw [stops_stop hl hs]
    exact .cons hp (ih hrest)

theorem LaidOut.ends : ∀ {bs : List β} {p : Nat}, c.LaidOut len P p bs →
    c.spoils p = false ∧ (c.scanFrom p).2 = c.size := by
  intro bs
  induction bs with
  | nil =>
    rintro p ⟨hp, hnone⟩
    rw [spoils_none hnone, scanFrom_none hnone, hp]
    simp
  | cons b bs ih =>
    rintro p ⟨hl, hs, -, hrest⟩
    rw [spoils_stop hl hs, scanFrom_some hl]
    exact ih hrest

end

/-! ## Walkers -/

variable {ε σ : Type}

/-- How an iterator relates to the chain it iterates over: `Home s` says that `s` belongs to it,
`At s p` that it stands at the record at `p`, `Ended s` that it has returned its end. -/
structure View (σ : Type) where
  Home : σ → Prop
  pos : σ → Nat
  err : σ → Bool
  At : σ → Nat → Prop
  Ended : σ → Prop

/-- What one round of an iterator over `c` can do from `s`. -/
inductive Visit (c : Chain) (v : View σ) (s : σ) : Loop.Round σ → Prop where
  | stop {s' : σ} {n : Nat} (hlen : c.len (v.pos s) = some n) (hstop : c.stop (v.pos s) = true)
      (home : v.Home s') (stands : v.At s' (v.pos s)) (herr : v.err s' = v.err s) :
      Visit c v s (.leave s')
  | finish {s' : σ} (hlen : c.len (v.pos s) = none) (home : v.Home s') (ended : v.Ended s')
      (hpos : v.pos s' = v.pos s) (herr : v.err s' = (v.err s || v.pos s != c.size)) :
      Visit c v s (.leave s')
  | skip {s' : σ} {n : Nat} (hlen : c.len (v.pos s) = some n) (hstop : c.stop (v.pos s) = false)
      (home : v.Home s') (hpos : v.pos s' = v.pos s + n)
      (herr : v.err s' = (v.err s || c.bad (v.pos s))) :
      Visit c v s (.again s')

theorem Visit.of_eq {c : Chain} {v : View σ} {s t : σ} {r : Loop.Round σ}
    (h : Visit c v s r) (hp : v.pos s = v.pos t) (he : v.err s = v.err t) : Visit c v t r := by
  cases h with
  | stop hlen hstop home stands herr =>
    rw [hp] at hlen hstop stands
    exact .stop hlen hstop home stands (herr.trans he)
  | finish hlen home ended hpos herr =>
    rw [hp] at hlen hpos
    exact .finish hlen home ended hpos (by rw [herr, hp, he])
  | skip hlen hstop home hpos herr =>
    rw [hp] at hlen hstop hpos
    exact .skip hlen hstop home hpos (by rw [herr, hp, he])

/-- An iterator over `c`, given by one round of its loop and the cases of that round. -/
structure Walker (c : Chain) (ε σ : Type) extends View σ where
  visit : σ → Except ε (Loop.Round σ)
  visit_cases : ∀ s, Home s → ∃ r, visit s = .ok r ∧ Visit c toView s r

namespace Walker

variable {c : Chain} (w : Walker c ε σ)

/-- Going on from position `p` with error flag `e`, the iterator arrives at the first stop. -/
structure Arrives (p : Nat) (e : Bool) (s : σ) : Prop where
  home : w.Home s
  arrives : (w.Ended s ∧ c.stops p = [] ∧ w.pos s = (c.scanFrom p).2 ∧ w.err s = (e || c.spoils p)) ∨
    (∃ q n, c.len q = some n ∧ p ≤ q ∧ c.stops p = q :: c.stops (q + n) ∧
      (c.scanFrom p).2 = (c.scanFrom (q + n)).2 ∧ w.At s q ∧
      (w.err s || c.spoils (q + n)) = (e || c.spoils p))

theorem loop_spec (out : ε) {s : σ} (hh : w.Home s) (hpos : w.pos s ≤ c.size) :
    ∃ s', Loop.repeatUntil w.visit out (c.size + 1) s = .ok s' ∧
      w.Arrives (w.pos s) (w.err s) s' := by
  -- the walk from the current position is the walk from the first one, error flag included
  let Inv : σ → Prop := fun t => w.Home t ∧ w.pos t ≤ c.size ∧ w.pos s ≤ w.pos t ∧
    c.stops (w.pos t) = c.stops (w.pos s) ∧
    (c.scanFrom (w.pos t)).2 = (c.scanFrom (w.pos s)).2 ∧
    (w.err t || c.spoils (w.pos t)) = (w.err s || c.spoils (w.pos s))
  refine Loop.repeatUntil_total (I := Inv) (μ := fun t => c.size - w.pos t) ?_ _ s
    ⟨hh, hpos, Nat.le_refl _, rfl, rfl, rfl⟩ (by omega)
  rintro t ⟨hhome, hsize, hle, hstops, hend, herr⟩
  obtain ⟨r, hr, hv⟩ := w.visit_cases t hhome
  cases hv with
  | stop hlen hstop home stands he =>
    refine .inl ⟨_, hr, home, .inr ⟨w.pos t, _, hlen, hle, ?_, ?_, stands, ?_⟩⟩
    · rw [← hstops, stops_stop hlen hstop]
    · rw [← hend, scanFrom_some hlen]
    · rw [← herr, spoils_stop hlen hstop, he]
  | finish hlen home ended hp he =>
    refine .inl ⟨_, hr, home, .inl ⟨ended, ?_, ?_, ?_⟩⟩
    · rw [← hstops, stops_none hlen]
    · rw [← hend, scanFrom_none hlen, hp]
    · rw [← herr, spoils_none hlen, he]
  | skip hlen hstop home hp he =>
    have hn := c.len_pos hlen
    have hfit := c.len_fits hlen
    refine .inr ⟨_, hr, ⟨home, ?_, ?_, ?_, ?_, ?_⟩, ?_⟩
    · rw [hp]; exact hfit
    · rw [hp]; omega
    · rw [hp, ← stops_skip hlen hstop, hstops]
    · rw [hp, ← hend, scanFrom_some hlen]
    · rw [hp, he, ← herr, spoils_skip hlen hstop, Bool.or_assoc]
    · rw [hp]; omega

/-- What a whole walk from `p` returns: the stops in order, and the error flag at the end, which is
also set if it was set at a stop. -/
structure Walked (p : Nat) (e : Bool) (l : List σ) (last : σ) : Prop where
  at_stops : List.Forall₂ w.At l (c.stops p)
  home : ∀ s ∈ l, w.Home s
  err_le : ∀ s ∈ l, w.err s = true → w.err last = true
  last_home : w.Home last
  ended : w.Ended last
  pos_eq : w.pos last = (c.scanFrom p).2
  err_eq : w.err last = (e || c.spoils p)

variable {p : Nat} {e : Bool}

variable {l : List σ} {last : σ} {w} in
theorem Walked.at_of_mem (h : w.Walked p e l last) : ∀ s ∈ l, ∃ q ∈ c.stops p, w.At s q := by
  have hat := h.at_stops
  generalize c.stops p = qs at hat ⊢
  clear h
  induction hat with
  | nil => simp
  | cons hab _ ih =>
    intro x hx
    rcases List.mem_cons.mp hx with rfl | hx
    · exact ⟨_, by simp, hab⟩
    · obtain ⟨q, hq, hx⟩ := ih x hx
      exact ⟨q, by simp [hq], hx⟩

variable {w} in
theorem Walked.mapM {β γ : Type} {len : β → Nat} {P : Nat → β → Prop} {f : σ → Except ε γ}
    {g : β → γ} {bs : List β} (h : w.Walked p e l last) (hlaid : c.LaidOut len P p bs)
    (hread : ∀ s q b, b ∈ bs → w.Home s → w.At s q → P q b → f s = .ok (g b)) : l.mapM f = .ok (bs.map g) := by
  have hstops := hlaid.stops
  have hat := h.at_stops
  have hhome := h.home
  clear h hlaid
  generalize c.stops p = qs at hstops hat
  induction hat generalizing bs with
  | nil => cases hstops; rfl
  | cons hsq _ ih =>
    cases hstops with
    | cons hqb hrest =>
      have hhead := hread _ _ _ (by simp) (hhome _ (by simp)) hsq hqb
      have htail := ih (fun s q b hb => hread s q b (List.mem_cons_of_mem _ hb)) (List.forall_mem_cons.mp hhome).2 hrest
      rw [List.mapM_cons, hhead, htail]
      rfl

/-- `while (!done(next()))`, where `next` goes on from the end of the record it stands at. -/
theorem collect_spec {next : σ → Except ε σ} {done : σ → Bool} {out : ε}
    (hnext : ∀ s p n, w.Home s → w.At s p → c.len p = some n → ∃ s', next s = .ok s' ∧ w.Arrives (p + n) (w.err s) s')
    (hdone : ∀ s, w.Ended s → done s = true) (hat : ∀ s p, w.At s p → done s = false) :
    ∀ (fuel : Nat) (s : σ) (p : Nat) (e : Bool),
      (∃ s', next s = .ok s' ∧ w.Arrives p e s') → p ≤ c.size → c.size < fuel + p →
      ∃ l last, Loop.collect next done out fuel s = .ok (l, last) ∧ w.Walked p e l last := by
  intro fuel
  induction fuel with
  | zero => intro s p e _ hp hf; omega
  | succ fuel ih =>
    rintro s p e ⟨s', hn, ha⟩ hp hf
    rcases ha.arrives with ⟨hend, hstops, hpos, herr⟩ | ⟨q, n, hl, hle, hstops, hscan, hq, herr⟩
    · refine ⟨[], s', by simp [Loop.collect, hn, hdone s' hend], ?_⟩
      exact ⟨by rw [hstops]; exact .nil, by simp, by simp, ha.home, hend, hpos, herr⟩
    · have hlen := c.len_pos hl
      obtain ⟨l, last, hc, ht⟩ := ih s' (q + n) (w.err s') (hnext s' q n ha.home hq hl) (c.len_fits hl) (by omega)
      refine ⟨s' :: l, last, Loop.collect_cons hn (hat s' q hq) hc, ?_⟩
      refine ⟨by rw [hstops]; exact .cons hq ht.at_stops, ?_, ?_, ht.last_home, ht.ended,
        by rw [ht.pos_eq, hscan], by rw [ht.err_eq, herr]⟩
      · intro x hx
        rcases List.mem_cons.mp hx with rfl | hx
        · exact ha.home
        · exact ht.home x hx
      · intro x hx hxe
        rcases List.mem_cons.mp hx with rfl | hx
        · rw [ht.err_eq, hxe]; rfl
        · exact ht.err_le x hx hxe

end Walker
end Chain
