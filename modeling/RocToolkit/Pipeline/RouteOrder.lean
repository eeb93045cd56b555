import RocToolkit.Pipeline.RouteInvariant

/-!
# RocToolkit.Pipeline.RouteOrder

Calls for several participants may come to the router in any order. A group stands for a participant:
its CNAME, its SSRCs, and its session, if it has one. `Progress` says which routes there are after some
of the calls, and each call, whatever was called before, leads from one such table to the next.
-/

open Function (update update_apply update_of_ne update_self)

namespace Roc.Pipeline

open List

open Roc.Core (NodeMap hashsumInt32)
open Rtcp (Cname)
open Routes (NoSource NoCname NoAddress NoSession Sound Target Linked Unlinked Added sessionRoute)
open SessionRouter (Call)

variable {σ : Type}

structure Attachment (σ : Type) where
  session : σ
  sourceId : UInt32
  sourceAddr : SocketAddr

structure PeerGroup (σ : Type) where
  cname : Cname
  named : cname.text.length ≠ 0
  sources : List UInt32
  nodup : sources.Nodup
  nonempty : sources ≠ []
  attached : Option (Attachment σ)
  source_mem : ∀ a ∈ attached, a.sourceId ∈ sources
  addressed : ∀ a ∈ attached, a.sourceAddr ≠ .unspecified

def Attachment.add (a : Attachment σ) : Call σ := .addSession a.session a.sourceId a.sourceAddr

namespace PeerGroup

def link (g : PeerGroup σ) (sourceId : UInt32) : Call σ := .linkSource sourceId g.cname g.named

def calls (g : PeerGroup σ) : List (Call σ) := g.sources.map g.link ++ g.attached.toList.map Attachment.add

structure Apart (groups : List (PeerGroup σ)) : Prop where
  nodup : groups.Nodup
  cname : ∀ g ∈ groups, ∀ g' ∈ groups, g.cname = g'.cname → g = g'
  source : ∀ g ∈ groups, ∀ g' ∈ groups, ∀ s, s ∈ g.sources → s ∈ g'.sources → g = g'
  session : ∀ g ∈ groups, ∀ g' ∈ groups, ∀ a ∈ g.attached, ∀ a' ∈ g'.attached, a.session = a'.session → g = g'
  address : ∀ g ∈ groups, ∀ g' ∈ groups, ∀ a ∈ g.attached, ∀ a' ∈ g'.attached, a.sourceAddr = a'.sourceAddr → g = g'

variable {g g' : PeerGroup σ} {a a' : Attachment σ} {s s' : UInt32} {done : List (Call σ)}
  {groups : List (PeerGroup σ)}

theorem link_inj : g.link s = g'.link s' ↔ s = s' ∧ g.cname = g'.cname := by
  simp [link]

theorem add_inj : a.add = a'.add ↔ a = a' := by
  cases a
  cases a'
  simp [Attachment.add]

theorem link_mem_cons : g.link s ∈ g'.link s' :: done ↔ s = s' ∧ g.cname = g'.cname ∨ g.link s ∈ done := by
  rw [mem_cons, link_inj]

theorem link_mem_add : g.link s ∈ a.add :: done ↔ g.link s ∈ done := by
  simp [link, Attachment.add]

theorem add_mem_link : a.add ∈ g.link s :: done ↔ a.add ∈ done := by
  simp [link, Attachment.add]

theorem add_mem_cons : a.add ∈ a'.add :: done ↔ a = a' ∨ a.add ∈ done := by
  rw [mem_cons, add_inj]

/-! ## The routes after some of the calls -/

/-- The route has the session of the group if it was added and its SSRC was linked, and none
otherwise. -/
structure Carries (done : List (Call σ)) (g : PeerGroup σ) (route : Route σ) : Prop where
  some : ∀ a ∈ g.attached, a.add ∈ done → g.link a.sourceId ∈ done →
    route.session = some a.session ∧ route.sourceAddr = a.sourceAddr
  none : (∀ a ∈ g.attached, a.add ∈ done → g.link a.sourceId ∉ done) →
    route.session = none ∧ route.sourceAddr = .unspecified

/-- A route of the group: the one with its name, or the one of its session while the SSRC of the session
is not linked. -/
inductive Stage (done : List (Call σ)) (g : PeerGroup σ) (route : Route σ) : Prop where
  | named (hcname : route.cname = g.cname) (hsources : ∀ s, s ∈ route.sources ↔ s ∈ g.sources ∧ g.link s ∈ done)
      (hcarries : Carries done g route)
  | lone (a : Attachment σ) (ha : a ∈ g.attached) (hadd : a.add ∈ done)
      (hlink : g.link a.sourceId ∉ done) (hroute : route = sessionRoute a.session a.sourceId a.sourceAddr)

structure Progress (groups : List (PeerGroup σ)) (done : List (Call σ)) (t : Routes σ) : Prop where
  stage : ∀ id route, t id = some route → ∃ g ∈ groups, Stage done g route
  linked : ∀ g ∈ groups, ∀ s ∈ g.sources, g.link s ∈ done → ∃ id route, t id = some route ∧ route.cname = g.cname
  added : ∀ g ∈ groups, ∀ a ∈ g.attached, a.add ∈ done → g.link a.sourceId ∉ done →
    ∃ id, t id = some (sessionRoute a.session a.sourceId a.sourceAddr)

variable {t t' : Routes σ} {n n' id : Nat} {route : Route σ}

theorem Progress.empty : Progress groups [] (fun _ => none : Routes σ) := by
  refine ⟨?_, ?_, ?_⟩
  · intro id route hf
    cases hf
  · intro g hg s hs hmem
    cases hmem
  · intro g hg a ha hmem
    cases hmem

theorem sessionRoute_cname_ne (g : PeerGroup σ) (a : Attachment σ) :
    (sessionRoute a.session a.sourceId a.sourceAddr).cname ≠ g.cname := by
  intro h
  refine g.named ?_
  rw [← h]
  rfl

section
variable (h : Progress groups done t) (hapart : Apart groups) (hg : g ∈ groups)
include h hapart hg

theorem Progress.of_cname (hf : t id = some route) (hc : route.cname = g.cname) :
    (∀ s, s ∈ route.sources ↔ s ∈ g.sources ∧ g.link s ∈ done) ∧ Carries done g route := by
  obtain ⟨g', hg', hstage⟩ := h.stage id route hf
  cases hstage with
  | named hcname hsources hcarries =>
    obtain rfl := hapart.cname g hg g' hg' (hc.symm.trans hcname)
    exact ⟨hsources, hcarries⟩
  | lone a ha hadd hlink hroute =>
    subst hroute
    exact absurd hc (sessionRoute_cname_ne g a)

theorem Progress.of_source (hs : s ∈ g.sources) (hlink : g.link s ∉ done) (hf : t id = some route)
    (hmem : s ∈ route.sources) :
    ∃ a ∈ g.attached, a.sourceId = s ∧ a.add ∈ done ∧
      route = sessionRoute a.session a.sourceId a.sourceAddr := by
  obtain ⟨g', hg', hstage⟩ := h.stage id route hf
  cases hstage with
  | named hcname hsources hcarries =>
    obtain ⟨hs', hlink'⟩ := (hsources s).mp hmem
    obtain rfl := hapart.source g hg g' hg' s hs hs'
    exact absurd hlink' hlink
  | lone a ha hadd hlink' hroute =>
    subst hroute
    obtain rfl := mem_singleton.mp hmem
    obtain rfl := hapart.source g hg g' hg' _ hs (g'.source_mem a ha)
    exact ⟨a, ha, rfl, hadd, rfl⟩

end

theorem Stage.holds (h : Stage done g route) : (route.session = none ∧ route.sourceAddr = .unspecified) ∨
      ∃ a ∈ g.attached, a.add ∈ done ∧ route.session = some a.session ∧ route.sourceAddr = a.sourceAddr := by
  cases h with
  | named hcname hsources hcarries =>
    by_cases hall : ∀ a ∈ g.attached, a.add ∈ done → g.link a.sourceId ∉ done
    · exact .inl (hcarries.none hall)
    · push Not at hall
      obtain ⟨a, ha, hadd, hlink⟩ := hall
      exact .inr ⟨a, ha, hadd, hcarries.some a ha hadd hlink⟩
  | lone a ha hadd hlink hroute =>
    subst hroute
    exact .inr ⟨a, ha, hadd, rfl, rfl⟩

/-! ## Linking an SSRC -/

theorem Stage.keep_link (h : Stage done g' route) (hc : route.cname ≠ g.cname) (hs : s ∉ route.sources) :
    Stage (g.link s :: done) g' route := by
  cases h with
  | named hcname hsources hcarries =>
    have hlink (s' : UInt32) : g'.link s' ∈ g.link s :: done ↔ g'.link s' ∈ done := by
      rw [link_mem_cons, or_iff_right]
      rintro ⟨-, hn⟩
      exact hc (hcname.trans hn)
    refine .named hcname (fun s' => by rw [hsources, hlink]) ⟨?_, ?_⟩
    · intro a ha hadd hl
      exact hcarries.some a ha (add_mem_link.mp hadd) ((hlink _).mp hl)
    · intro hall
      exact hcarries.none fun a ha hadd hl => hall a ha (add_mem_link.mpr hadd) ((hlink _).mpr hl)
  | lone a ha hadd hlink hroute =>
    refine .lone a ha (add_mem_link.mpr hadd) ?_ hroute
    rw [link_mem_cons]
    rintro (⟨rfl, -⟩ | hl)
    · subst hroute
      exact hs mem_cons_self
    · exact hlink hl

/-- The route `id` has the name and the SSRC now, and the others are what they were, except that the SSRC
is not in them. -/
structure Placed (t : Routes σ) (g : PeerGroup σ) (s : UInt32) (t' : Routes σ) (id : Nat) (route : Route σ) :
    Prop where
  new : t' id = some route
  old : ∀ route, t id = some route → route.cname = g.cname ∨ s ∈ route.sources
  back : ∀ j ≠ id, ∀ route, t' j = some route → t j = some route ∧ route.cname ≠ g.cname ∧ s ∉ route.sources
  keep : ∀ j ≠ id, ∀ route, t j = some route → s ∉ route.sources → t' j = some route

section
variable (h : Progress groups done t) (hapart : Apart groups) (hg : g ∈ groups) (hs : s ∈ g.sources)
include h hapart hg hs

theorem Progress.placed (hp : Placed t g s t' id route) (hc : route.cname = g.cname)
    (hsources : ∀ s', s' ∈ route.sources ↔ s' ∈ g.sources ∧ g.link s' ∈ g.link s :: done)
    (hcarries : Carries (g.link s :: done) g route) : Progress groups (g.link s :: done) t' := by
  refine ⟨?_, ?_, ?_⟩
  · intro j route' hf
    by_cases hj : j = id
    · subst hj
      obtain rfl := Option.some.inj (hp.new.symm.trans hf)
      exact ⟨g, hg, .named hc hsources hcarries⟩
    · obtain ⟨hf', hc', hs'⟩ := hp.back j hj route' hf
      obtain ⟨g', hg', hstage⟩ := h.stage j route' hf'
      exact ⟨g', hg', hstage.keep_link hc' hs'⟩
  · intro g' hg' s' hs' hmem
    by_cases hgg : g = g'
    · subst hgg
      exact ⟨id, route, hp.new, hc⟩
    -- the named route of another group does not have the SSRC
    have hne : g.cname ≠ g'.cname := fun hn => hgg (hapart.cname g hg g' hg' hn)
    have hmem' : g'.link s' ∈ done := (link_mem_cons.mp hmem).resolve_left fun hn => hne hn.2.symm
    obtain ⟨j, route', hf, hc'⟩ := h.linked g' hg' s' hs' hmem'
    have hnot : s ∉ route'.sources := fun hin =>
      hgg (hapart.source g hg g' hg' s hs (((h.of_cname hapart hg' hf hc').1 s).mp hin).1)
    have hj : j ≠ id := by
      rintro rfl
      rcases hp.old route' hf with hn | hin
      · exact hne (hn.symm.trans hc')
      · exact hnot hin
    exact ⟨j, route', hp.keep j hj route' hf hnot, hc'⟩
  · intro g' hg' a ha hadd hlink
    rw [link_mem_cons, not_or] at hlink
    obtain ⟨j, hf⟩ := h.added g' hg' a ha (add_mem_link.mp hadd) hlink.2
    have hnot : s ∉ (sessionRoute a.session a.sourceId a.sourceAddr).sources := by
      intro hin
      obtain rfl := mem_singleton.mp hin
      obtain rfl := hapart.source g hg g' hg' _ hs (g'.source_mem a ha)
      exact hlink.1 ⟨rfl, rfl⟩
    have hj : j ≠ id := by
      rintro rfl
      rcases hp.old _ hf with hn | hin
      · exact sessionRoute_cname_ne g a hn
      · exact hnot hin
    exact ⟨j, hp.keep j hj _ hf hnot⟩

theorem Progress.target (ht : Target t n s g.cname id route n') : route.cname = g.cname ∧
      (∀ s', s' ∈ route.sources ↔ s' ∈ g.sources ∧ g.link s' ∈ g.link s :: done) ∧
      Carries done g route := by
  cases ht with
  | new hno =>
    have hnone (s' : UInt32) (hs' : s' ∈ g.sources) : g.link s' ∉ done := by
      intro hmem
      obtain ⟨j, route', hf, hc⟩ := h.linked g hg s' hs' hmem
      exact hno j route' hf (congrArg Cname.text hc)
    refine ⟨rfl, fun s' => ?_, ?_, fun _ => ⟨rfl, rfl⟩⟩
    · rw [link_mem_cons, mem_singleton]
      constructor
      · rintro rfl
        exact ⟨hs, .inl ⟨rfl, rfl⟩⟩
      · rintro ⟨hs', hl | hl⟩
        · exact hl.1
        · exact absurd hl (hnone s' hs')
    · intro a ha _ hl
      exact absurd hl (hnone _ (g.source_mem a ha))
  | known hf hc =>
    have hcname := Cname.ext hc
    obtain ⟨hsources, hcarries⟩ := h.of_cname hapart hg hf hcname
    refine ⟨hcname, fun s' => ?_, hcarries.some, hcarries.none⟩
    rw [mem_append, hsources, link_mem_cons, mem_singleton]
    constructor
    · rintro (⟨hs', hl⟩ | rfl)
      · exact ⟨hs', .inr hl⟩
      · exact ⟨hs, .inl ⟨rfl, rfl⟩⟩
    · rintro ⟨hs', hl | hl⟩
      · exact .inr hl.1
      · exact .inl ⟨hs', hl⟩

end

theorem target_old (hfresh : t n = none) (ht : Target t n s g.cname id route n') (route' : Route σ)
    (hf : t id = some route') : route'.cname = g.cname := by
  cases ht with
  | new hno =>
    rw [hfresh] at hf
    cases hf
  | known hf' hc =>
    obtain rfl := Option.some.inj (hf'.symm.trans hf)
    exact Cname.ext hc

theorem carries_moved (ha : a ∈ g.attached) (hadd : a.add ∈ done)
    (hsess : route.session = some a.session) (haddr : route.sourceAddr = a.sourceAddr) :
    Carries (g.link a.sourceId :: done) g route := by
  refine ⟨fun a' ha' _ _ => ?_, fun hall => ?_⟩
  · obtain rfl := Option.mem_unique ha ha'
    exact ⟨hsess, haddr⟩
  · exact absurd mem_cons_self (hall a ha (add_mem_link.mpr hadd))

theorem mem_calls {c : Call σ} (hc : c ∈ groups.flatMap calls) :
    ∃ g ∈ groups, (∃ s ∈ g.sources, c = g.link s) ∨ ∃ a ∈ g.attached, c = a.add := by
  obtain ⟨g, hg, hc⟩ := mem_flatMap.mp hc
  refine ⟨g, hg, (mem_append.mp hc).imp ?_ ?_⟩
  · intro hc
    obtain ⟨s, hs, rfl⟩ := mem_map.mp hc
    exact ⟨s, hs, rfl⟩
  · intro hc
    obtain ⟨a, ha, rfl⟩ := mem_map.mp hc
    exact ⟨a, Option.mem_toList.mp ha, rfl⟩

theorem Stage.keep_add (h : Stage done g' route) (hapart : Apart groups) (hg : g ∈ groups)
    (hg' : g' ∈ groups) (ha : a ∈ g.attached)
    (hc : route.cname ≠ g.cname ∨ g.link a.sourceId ∉ done) : Stage (a.add :: done) g' route := by
  cases h with
  | named hcname hsources hcarries =>
    -- the new session is another group's, or its SSRC is not linked
    have hother : ∀ a' ∈ g'.attached, g'.link a'.sourceId ∈ done → (a'.add ∈ a.add :: done ↔ a'.add ∈ done) := by
      intro a' ha' hlink
      rw [add_mem_cons, or_iff_right]
      rintro rfl
      obtain rfl := hapart.session g hg g' hg' a' ha a' ha' rfl
      exact hc.elim (fun hc => hc hcname) (fun hc => hc hlink)
    refine .named hcname (fun s' => by rw [hsources, link_mem_add]) ⟨?_, ?_⟩
    · intro a' ha' hadd hlink
      have hlink' := link_mem_add.mp hlink
      exact hcarries.some a' ha' ((hother a' ha' hlink').mp hadd) hlink'
    · intro hall
      refine hcarries.none fun a' ha' hadd hlink => ?_
      exact hall a' ha' ((hother a' ha' hlink).mpr hadd) (link_mem_add.mpr hlink)
  | lone a' ha' hadd hlink hroute =>
    exact .lone a' ha' (mem_cons_of_mem _ hadd) (fun hl => hlink (link_mem_add.mp hl)) hroute

theorem Progress.no_conflict (h : Progress groups done t) (hapart : Apart groups) (hg : g ∈ groups)
    (ha : a ∈ g.attached) (hnew : a.add ∉ done) : t.NoAddress a.sourceAddr ∧ t.NoSession a.session := by
  refine ⟨fun id route hf haddr => ?_, fun id route hf hsess => ?_⟩
  all_goals
    obtain ⟨g', hg', hstage⟩ := h.stage id route hf
    obtain ⟨hnone, hunspec⟩ | ⟨a', ha', hadd, hsess', haddr'⟩ := hstage.holds
  · exact g.addressed a ha (haddr.symm.trans hunspec)
  · obtain rfl := hapart.address g hg g' hg' a ha a' ha' (haddr.symm.trans haddr')
    obtain rfl := Option.mem_unique ha ha'
    exact hnew hadd
  · rw [hnone] at hsess
    cases hsess
  · have heq := Option.some.inj (hsess.symm.trans hsess')
    obtain rfl := hapart.session g hg g' hg' a ha a' ha' heq
    obtain rfl := Option.mem_unique ha ha'
    exact hnew hadd

section
variable [DecidableEq σ] {r : SessionRouter σ}

theorem target_other (hrep : r.Represents t n) (ht : Target t n s g.cname id route n') {j : Nat}
    (hj : j ≠ id) {route' : Route σ} (hf : t j = some route') : route'.cname ≠ g.cname := by
  intro hc'
  cases ht with
  | new hno => exact hno j route' hf (congrArg Cname.text hc')
  | known hf' hc =>
    refine hj (hrep.cname.unique (k := g.cname.text) hf hf' ?_ ?_)
    · exact Route.mem_cnameKeys.mpr ⟨by rw [hc'], g.named⟩
    · exact Route.mem_cnameKeys.mpr ⟨hc, g.named⟩

section
variable (h : Progress groups done t) (hapart : Apart groups) (hg : g ∈ groups)
include h hapart hg

theorem Progress.link (hs : s ∈ g.sources) (hnew : g.link s ∉ done) (hrep : r.Represents t n)
    (hsound : Sound t n) (hl : Linked t n s g.cname t' n') : Progress groups (g.link s :: done) t' := by
  have hfresh : t n = none := hsound.fresh n (Nat.le_refl n)
  cases hl with
  | same hf hmem hc =>
    obtain ⟨a, ha, -, -, rfl⟩ := h.of_source hapart hg hs hnew hf hmem
    exact absurd (Cname.ext hc) (sessionRoute_cname_ne g a)
  | @name id route hf hmem hempty hno =>
    obtain ⟨a, ha, rfl, hadd, rfl⟩ := h.of_source hapart hg hs hnew hf hmem
    obtain ⟨-, hsources, -⟩ := h.target hapart hg hs (Target.new (n := n) hno)
    refine h.placed hapart hg hs ⟨update_self .., ?_, ?_, ?_⟩ rfl hsources (carries_moved ha hadd rfl rfl)
    · intro route' hf'
      obtain rfl := Option.some.inj (hf.symm.trans hf')
      exact .inr hmem
    · intro j hj route' hf'
      rw [update_of_ne hj] at hf'
      refine ⟨hf', fun hc => hno j route' hf' (congrArg Cname.text hc), fun hin => hj ?_⟩
      exact hrep.source.unique hf' hf hin hmem
    · intro j hj route' hf' _
      rwa [update_of_ne hj]
  | @place id n' route hno ht =>
    obtain ⟨hc, hsources, hcarries⟩ := h.target hapart hg hs ht
    refine h.placed hapart hg hs ⟨update_self .., ?_, ?_, ?_⟩ hc hsources ⟨?_, ?_⟩
    · exact fun route' hf => .inl (target_old hfresh ht route' hf)
    · intro j hj route' hf
      rw [update_of_ne hj] at hf
      exact ⟨hf, target_other hrep ht hj hf, hno j route' hf⟩
    · intro j hj route' hf _
      rwa [update_of_ne hj]
    · -- the session of the SSRC would have a route with the SSRC
      intro a ha hadd hlink
      rcases link_mem_cons.mp hlink with ⟨rfl, -⟩ | hlink
      · obtain ⟨j, hf⟩ := h.added g hg a ha (add_mem_link.mp hadd) hnew
        exact absurd mem_cons_self (hno j _ hf)
      · exact hcarries.some a ha (add_mem_link.mp hadd) hlink
    · intro hall
      exact hcarries.none fun a ha hadd hlink =>
        hall a ha (add_mem_link.mpr hadd) (mem_cons_of_mem _ hlink)
  | moveOther hf hmem hc ht hmain =>
    obtain ⟨a, ha, rfl, -, rfl⟩ := h.of_source hapart hg hs hnew hf hmem
    exact absurd rfl hmain
  | @moveMain oldId newId n' oldRoute newRoute hf hmem hc ht hmain =>
    obtain ⟨a, ha, rfl, hadd, rfl⟩ := h.of_source hapart hg hs hnew hf hmem
    obtain ⟨hcname, hsources, -⟩ := h.target hapart hg hs ht
    have hne : newId ≠ oldId := (SessionRouter.Target.ne ht hfresh hf hc).symm
    rw [Routes.put, if_pos (by simp [Route.drop, sessionRoute])]
    refine h.placed hapart hg hs ⟨(update_of_ne hne ..).trans (update_self ..), ?_, ?_, ?_⟩ hcname hsources
      (carries_moved ha hadd rfl rfl)
    · exact fun route' hf => .inl (target_old hfresh ht route' hf)
    · intro j hj route' hf'
      by_cases ho : j = oldId
      · subst ho
        rw [update_self] at hf'
        cases hf'
      · rw [update_of_ne ho, update_of_ne hj] at hf'
        refine ⟨hf', target_other hrep ht hj hf', fun hin => ho ?_⟩
        exact hrep.source.unique hf' hf hin hmem
    · intro j hj route' hf' hnot
      have ho : j ≠ oldId := by
        rintro rfl
        obtain rfl := Option.some.inj (hf.symm.trans hf')
        exact hnot hmem
      rwa [update_of_ne ho, update_of_ne hj]

/-! ## Adding the session -/

theorem Progress.attach (ha : a ∈ g.attached) (hrep : r.Represents t n) (hf : t id = some route)
    (hmem : a.sourceId ∈ route.sources) (hnosess : route.session = none) :
    Progress groups (a.add :: done)
      (update t id (some { route with sourceAddr := a.sourceAddr, session := some a.session })) := by
  obtain ⟨g', hg', hstage⟩ := h.stage id route hf
  cases hstage with
  | lone a' ha' hadd hlink hroute =>
    subst hroute
    cases hnosess
  | named hcname hsources hcarries =>
    obtain ⟨hs, hlink⟩ := (hsources _).mp hmem
    obtain rfl := hapart.source g' hg' g hg _ hs (g.source_mem a ha)
    refine ⟨?_, ?_, ?_⟩
    · intro j route' hf'
      rw [update_apply] at hf'
      split at hf'
      · cases hf'
        refine ⟨g', hg', .named hcname (fun s => ?_) ⟨?_, ?_⟩⟩
        · rw [link_mem_add]
          exact hsources s
        · intro a' ha' _ _
          obtain rfl := Option.mem_unique ha ha'
          exact ⟨rfl, rfl⟩
        · intro hall
          exact absurd (link_mem_add.mpr hlink) (hall a ha mem_cons_self)
      · next hj =>
        obtain ⟨g'', hg'', hstage⟩ := h.stage j route' hf'
        refine ⟨g'', hg'', hstage.keep_add hapart hg hg'' ha (.inl fun hc => hj ?_)⟩
        refine hrep.cname.unique (k := g'.cname.text) hf' hf ?_ ?_
        · exact Route.mem_cnameKeys.mpr ⟨by rw [hc], g'.named⟩
        · exact Route.mem_cnameKeys.mpr ⟨by rw [hcname], g'.named⟩
    · intro g'' hg'' s hs' hmem'
      obtain ⟨j, route', hf', hc⟩ := h.linked g'' hg'' s hs' (link_mem_add.mp hmem')
      by_cases hj : j = id
      · subst hj
        obtain rfl := Option.some.inj (hf.symm.trans hf')
        exact ⟨j, _, update_self .., hc⟩
      · exact ⟨j, route', (update_of_ne hj ..).trans hf', hc⟩
    · intro g'' hg'' a' ha' hadd hlink'
      rw [link_mem_add] at hlink'
      have hold : a'.add ∈ done := by
        refine (add_mem_cons.mp hadd).resolve_left ?_
        rintro rfl
        obtain rfl := hapart.session g' hg' g'' hg'' _ ha _ ha' rfl
        exact hlink' hlink
      obtain ⟨j, hf'⟩ := h.added g'' hg'' a' ha' hold hlink'
      have hj : j ≠ id := by
        rintro rfl
        obtain rfl := Option.some.inj (hf.symm.trans hf')
        cases hnosess
      exact ⟨j, (update_of_ne hj ..).trans hf'⟩

end

section
variable (h : Progress groups done t) (hapart : Apart groups) (hg : g ∈ groups) (ha : a ∈ g.attached)
include h hapart hg ha

omit [DecidableEq σ] in
theorem Progress.create (hfresh : t n = none) (hno : t.NoSource a.sourceId) : Progress groups (a.add :: done)
      (update t n (some (sessionRoute a.session a.sourceId a.sourceAddr))) := by
  have hs := g.source_mem a ha
  have hlink : g.link a.sourceId ∉ done := by
    intro hlink
    obtain ⟨j, route', hf, hc⟩ := h.linked g hg _ hs hlink
    exact hno j route' hf (((h.of_cname hapart hg hf hc).1 _).mpr ⟨hs, hlink⟩)
  have hkeep {j : Nat} {route' : Route σ} (hf : t j = some route') :
      update t n (some (sessionRoute a.session a.sourceId a.sourceAddr)) j = some route' := by
    have hj : j ≠ n := by
      rintro rfl
      rw [hfresh] at hf
      cases hf
    exact (update_of_ne hj ..).trans hf
  refine ⟨?_, ?_, ?_⟩
  · intro j route' hf
    rw [update_apply] at hf
    split at hf
    · cases hf
      exact ⟨g, hg, .lone a ha mem_cons_self (fun hl => hlink (link_mem_add.mp hl)) rfl⟩
    · obtain ⟨g', hg', hstage⟩ := h.stage j route' hf
      exact ⟨g', hg', hstage.keep_add hapart hg hg' ha (.inr hlink)⟩
  · intro g' hg' s hs' hmem
    obtain ⟨j, route', hf, hc⟩ := h.linked g' hg' s hs' (link_mem_add.mp hmem)
    exact ⟨j, route', hkeep hf, hc⟩
  · intro g' hg' a' ha' hadd hlink'
    rcases add_mem_cons.mp hadd with rfl | hadd
    · exact ⟨n, update_self ..⟩
    · obtain ⟨j, hf⟩ := h.added g' hg' a' ha' hadd fun hl => hlink' (link_mem_add.mpr hl)
      exact ⟨j, hkeep hf⟩

theorem Progress.add (hnew : a.add ∉ done) (hrep : r.Represents t n) (hsound : Sound t n)
    {code : StatusCode} (hadded : Added t n a.session a.sourceId a.sourceAddr code t' n') :
    code = .ok ∧ Progress groups (a.add :: done) t' := by
  obtain ⟨hnoaddr, hnosess⟩ := h.no_conflict hapart hg ha hnew
  cases hadded with
  | conflict hconf =>
    rcases hconf with ⟨-, hc⟩ | hc
    · exact absurd hnoaddr hc
    · exact absurd hnosess hc
  | attach _ _ hf hmem _ hnone => exact ⟨rfl, h.attach hapart hg ha hrep hf hmem hnone⟩
  | create _ _ hu hother =>
    have hno : t.NoSource a.sourceId := by
      intro id route hf hmem
      obtain ⟨g', hg', hstage⟩ := h.stage id route hf
      -- a route with a session would have the session that is added now
      obtain ⟨hnone, hunspec⟩ | ⟨a', ha', hadd, _⟩ := hstage.holds
      · exact hother id route hf hmem ⟨hunspec, hnone⟩
      · have hs' : a.sourceId ∈ g'.sources := by
          cases hstage with
          | named _ hsources _ => exact ((hsources _).mp hmem).1
          | lone a'' ha'' _ _ hroute =>
            subst hroute
            obtain heq := mem_singleton.mp hmem
            exact heq ▸ g'.source_mem a'' ha''
        obtain rfl := hapart.source g hg g' hg' _ (g.source_mem a ha) hs'
        obtain rfl := Option.mem_unique ha ha'
        exact hnew hadd
    cases hu with
    | none => exact ⟨rfl, h.create hapart hg ha (hsound.fresh n (Nat.le_refl n)) hno⟩
    | some hf hmem => exact absurd hmem (hno _ _ hf)

end

/-! ## All calls -/

theorem Progress.call (h : Progress groups done r.routes.get) (hapart : Apart groups)
    (hcons : r.Consistent) {c : Call σ} (hc : c ∈ groups.flatMap calls) (hnew : c ∉ done) :
    ∃ r', r.call c = .ok (.ok, r') ∧ r'.Consistent ∧ Progress groups (c :: done) r'.routes.get := by
  obtain ⟨g, hg, ⟨s, hs, rfl⟩ | ⟨a, ha, rfl⟩⟩ := mem_calls hc
  · have hmove : Routes.MovesSession r.routes.get s g.cname := by
      intro id route hf hmem _ _
      obtain ⟨a, ha, -, -, rfl⟩ := h.of_source hapart hg hs hnew hf hmem
      exact ⟨g.addressed a ha, Option.some_ne_none _⟩
    obtain ⟨r', t', n', hr', hlinked, hrep'⟩ := hcons.maps.linkSource hcons.sound g.named hmove
    obtain ⟨rfl, rfl, -⟩ := id hrep'
    refine ⟨r', hr', ⟨hrep', ?_⟩, h.link hapart hg hs hnew hcons.maps hcons.sound hlinked⟩
    exact hlinked.sound hcons.sound fun i j route route' hi hj hs hs' =>
      hcons.maps.source.unique hi hj hs hs'
  · obtain ⟨r', code, t', n', hr', hadded, hrep'⟩ := hcons.maps.addSession hcons.sound a.session a.sourceId a.sourceAddr
    obtain ⟨rfl, rfl, -⟩ := id hrep'
    obtain ⟨rfl, h'⟩ := h.add hapart hg ha hnew hcons.maps hcons.sound hadded
    exact ⟨r', hr', ⟨hrep', hadded.sound hcons.sound⟩, h'⟩

end

end PeerGroup

namespace SessionRouter

open PeerGroup (Apart Progress)

variable [DecidableEq σ]

def callAll (r : SessionRouter σ) : List (Call σ) → Except Fault (List StatusCode × SessionRouter σ)
  | [] => .ok ([], r)
  | c :: calls => do
    let (code, r) ← r.call c
    let (codes, r) ← r.callAll calls
    return (code :: codes, r)

section
variable (hashes : KeyHashes σ)

/-- The calls with the buckets of the maps. -/
def callAllOn (r : SessionRouter σ) : List (Call σ) → Except Fault (List StatusCode × SessionRouter σ)
  | [] => .ok ([], r)
  | c :: calls => do
    let (code, r) ← r.callOn hashes c
    let (codes, r) ← r.callAllOn calls
    return (code :: codes, r)

/-- No insertion of the calls has to grow a map that is blocked. -/
def NeverBlocked (r : SessionRouter σ) : List (Call σ) → Prop
  | [] => True
  | c :: calls => ∀ code r', r.call c = .ok (code, r') → r'.Unblocked hashes ∧ r'.NeverBlocked calls

end

theorem callAllOn_ok_iff {hashes : KeyHashes σ} {calls : List (Call σ)} {r r' : SessionRouter σ}
    {codes : List StatusCode} (h : r.callAll calls = .ok (codes, r')) :
    (∃ result, r.callAllOn hashes calls = .ok result) ↔ r.NeverBlocked hashes calls := by
  induction calls generalizing r codes with
  | nil => exact iff_of_true ⟨_, rfl⟩ trivial
  | cons c calls ih =>
    obtain ⟨⟨code, r1⟩, hc, h⟩ := bind_eq_ok.mp h
    obtain ⟨⟨codes1, r2⟩, hrest, ⟨⟩⟩ := bind_eq_ok.mp h
    constructor
    · rintro ⟨result, hresult⟩ code' r1' hc'
      cases hc.symm.trans hc'
      obtain ⟨⟨_, _⟩, hon, hresult⟩ := bind_eq_ok.mp hresult
      obtain ⟨hc', hfree⟩ := callOn_ok_iff.mp hon
      cases hc.symm.trans hc'
      obtain ⟨result, hresult, -⟩ := bind_eq_ok.mp hresult
      exact ⟨hfree, (ih hrest).mp ⟨result, hresult⟩⟩
    · intro hfree
      obtain ⟨hfree1, hfree⟩ := hfree code r1 hc
      obtain ⟨result, hresult⟩ := (ih hrest).mpr hfree
      refine ⟨(code :: result.1, result.2), ?_⟩
      unfold callAllOn
      rw [callOn_ok_iff.mpr ⟨hc, hfree1⟩, ok_bind]
      dsimp only
      rw [hresult]
      rfl

/-- Where the buckets allow the calls, they do not change what the calls do. -/
theorem callAll_of_callAllOn {hashes : KeyHashes σ} {calls : List (Call σ)} {r r' : SessionRouter σ}
    {codes : List StatusCode} (h : r.callAllOn hashes calls = .ok (codes, r')) :
    r.callAll calls = .ok (codes, r') ∧ (calls ≠ [] → r'.Unblocked hashes) := by
  induction calls generalizing r codes with
  | nil =>
    cases h
    exact ⟨rfl, fun hne => absurd rfl hne⟩
  | cons c calls ih =>
    obtain ⟨⟨code, r1⟩, hon, h⟩ := bind_eq_ok.mp h
    obtain ⟨⟨codes1, r2⟩, hrest, ⟨⟩⟩ := bind_eq_ok.mp h
    obtain ⟨hc, hfree⟩ := callOn_ok_iff.mp hon
    obtain ⟨hall, hlast⟩ := ih hrest
    refine ⟨?_, fun _ => ?_⟩
    · unfold callAll
      rw [hc, ok_bind]
      dsimp only
      rw [hall]
      rfl
    · cases calls with
      | nil =>
        cases hrest
        exact hfree
      | cons c' calls => exact hlast (List.cons_ne_nil _ _)

variable {groups : List (PeerGroup σ)} {r : SessionRouter σ}

theorem callAll_progress (hapart : Apart groups) {calls : List (Call σ)}
    (hmem : ∀ c ∈ calls, c ∈ groups.flatMap PeerGroup.calls) (hnodup : calls.Nodup) :
    ∀ {done : List (Call σ)} {r : SessionRouter σ}, (∀ c ∈ calls, c ∉ done) → r.Consistent →
      Progress groups done r.routes.get →
      ∃ r', r.callAll calls = .ok (List.replicate calls.length .ok, r') ∧ r'.Consistent ∧
        Progress groups (calls.reverse ++ done) r'.routes.get := by
  induction calls with
  | nil => exact fun _ hcons h => ⟨_, rfl, hcons, h⟩
  | cons c calls ih =>
    intro done r hnew hcons h
    obtain ⟨hc, hnodup⟩ := nodup_cons.mp hnodup
    obtain ⟨r1, hr1, hcons1, h1⟩ := h.call hapart hcons (hmem c mem_cons_self) (hnew c mem_cons_self)
    have hnew1 : ∀ c' ∈ calls, c' ∉ c :: done := by
      intro c' hc'
      rw [mem_cons, not_or]
      exact ⟨fun heq => hc (heq ▸ hc'), hnew c' (mem_cons_of_mem _ hc')⟩
    obtain ⟨r', hr', hcons', h'⟩ := ih (fun c' hc' => hmem c' (mem_cons_of_mem _ hc')) hnodup hnew1 hcons1 h1
    refine ⟨r', ?_, hcons', ?_⟩
    · unfold callAll
      simp only [hr1, hr', ok_bind, pure_eq_ok, length_cons, replicate_succ]
    · rwa [reverse_cons, append_assoc]

open PeerGroup

omit [DecidableEq σ] in
theorem nodup_calls (hapart : Apart groups) : (groups.flatMap calls).Nodup := by
  refine nodup_flatMap.mpr ⟨fun g hg => ?_, ?_⟩
  · refine nodup_append.mpr ⟨?_, ?_, ?_⟩
    · exact g.nodup.map fun s s' h => (link_inj.mp h).1
    · cases g.attached <;> simp
    · intro c hc c' hc' heq
      obtain ⟨s, _, rfl⟩ := mem_map.mp hc
      obtain ⟨a, _, rfl⟩ := mem_map.mp hc'
      cases heq
  · refine hapart.nodup.pairwise_of_forall_ne fun g hg g' hg' hne c hc hc' => hne ?_
    have hof {g : PeerGroup σ} (hc : c ∈ g.calls) := mem_calls (show c ∈ [g].flatMap calls by simpa using hc)
    simp only [mem_singleton, exists_eq_left] at hof
    rcases hof hc with ⟨s, hs, rfl⟩ | ⟨a, ha, rfl⟩ <;> rcases hof hc' with ⟨s', hs', heq⟩ | ⟨a', ha', heq⟩
    · exact hapart.cname g hg g' hg' (link_inj.mp heq).2
    · cases heq
    · cases heq
    · exact hapart.session g hg g' hg' a ha a' ha' (by rw [add_inj.mp heq])

theorem routes_of_all {done : List (Call σ)} (h : Progress groups done r.routes.get)
    (hapart : Apart groups) (hall : ∀ c, c ∈ done ↔ c ∈ groups.flatMap calls) :
    (∀ id route, r.routes.get id = some route → ∃ g ∈ groups, route.cname = g.cname) ∧
    ∀ g ∈ groups, ∃ id route, r.routes.get id = some route ∧ route.cname = g.cname ∧
      (∀ s, s ∈ route.sources ↔ s ∈ g.sources) ∧ route.session = g.attached.map Attachment.session ∧
      ∀ a ∈ g.attached, route.sourceAddr = a.sourceAddr := by
  have hlink (g : PeerGroup σ) (hg : g ∈ groups) (s : UInt32) (hs : s ∈ g.sources) : g.link s ∈ done :=
    (hall _).mpr (mem_flatMap.mpr ⟨g, hg, mem_append_left _ (mem_map_of_mem hs)⟩)
  have hadd (g : PeerGroup σ) (hg : g ∈ groups) (a : Attachment σ) (ha : a ∈ g.attached) : a.add ∈ done :=
    (hall _).mpr (mem_flatMap.mpr ⟨g, hg, mem_append_right _ (mem_map_of_mem (Option.mem_toList.mpr ha))⟩)
  refine ⟨fun id route hf => ?_, fun g hg => ?_⟩
  · obtain ⟨g, hg, hstage⟩ := h.stage id route hf
    cases hstage with
    | named hcname => exact ⟨g, hg, hcname⟩
    | lone a ha _ hno => exact absurd (hlink g hg _ (g.source_mem a ha)) hno
  · obtain ⟨s, hs⟩ := exists_mem_of_ne_nil _ g.nonempty
    obtain ⟨id, route, hf, hc⟩ := h.linked g hg s hs (hlink g hg s hs)
    obtain ⟨hsources, hcarries⟩ := h.of_cname hapart hg hf hc
    have hcarried (a : Attachment σ) (ha : a ∈ g.attached) :=
      hcarries.some a ha (hadd g hg a ha) (hlink g hg _ (g.source_mem a ha))
    refine ⟨id, route, hf, hc, fun s => ?_, ?_, fun a ha => (hcarried a ha).2⟩
    · rw [hsources, and_iff_left_iff_imp]
      exact hlink g hg s
    · cases hatt : g.attached with
      | none => exact (hcarries.none fun a ha => by rw [hatt] at ha; cases ha).1
      | some a => exact (hcarried a hatt).1

theorem numRoutes_eq (hcons : r.Consistent) (hapart : Apart groups)
    (hroute : ∀ id route, r.routes.get id = some route → ∃ g ∈ groups, route.cname = g.cname)
    (hgroup : ∀ g ∈ groups, ∃ id route, r.routes.get id = some route ∧ route.cname = g.cname) :
    r.numRoutes = groups.length := by
  -- the routes and the groups have the same names, each once
  let names := r.routes.keys.map fun id => (r.routes.get id).map Route.cname
  have hkey (id : Nat) : id ∈ r.routes.keys ↔ ∃ route, r.routes.get id = some route := by
    rw [← AList.mem_keys, ← AList.lookup_isSome, Option.isSome_iff_exists]
    rfl
  have hnames : names.Nodup := by
    refine List.Nodup.map_on (fun i hi j hj heq => ?_) r.routes.nodupKeys
    obtain ⟨route, hf⟩ := (hkey i).mp hi
    obtain ⟨route', hf'⟩ := (hkey j).mp hj
    rw [hf, hf'] at heq
    obtain ⟨g, hg, hc⟩ := hroute i route hf
    have hc' : route'.cname = g.cname := (Option.some.inj heq).symm.trans hc
    refine hcons.maps.cname.unique (k := g.cname.text) hf hf' ?_ ?_
    · exact Route.mem_cnameKeys.mpr ⟨by rw [hc], g.named⟩
    · exact Route.mem_cnameKeys.mpr ⟨by rw [hc'], g.named⟩
  have hgroups : (groups.map fun g => some g.cname).Nodup :=
    hapart.nodup.map_on fun g hg g' hg' heq => hapart.cname g hg g' hg' (Option.some.inj heq)
  have hperm : names.Perm (groups.map fun g => some g.cname) := by
    refine (perm_ext_iff_of_nodup hnames hgroups).mpr fun name => ?_
    simp only [names, mem_map]
    constructor
    · rintro ⟨id, hid, rfl⟩
      obtain ⟨route, hf⟩ := (hkey id).mp hid
      obtain ⟨g, hg, hc⟩ := hroute id route hf
      exact ⟨g, hg, by rw [hf, Option.map_some, hc]⟩
    · rintro ⟨g, hg, rfl⟩
      obtain ⟨id, route, hf, hc⟩ := hgroup g hg
      exact ⟨id, (hkey id).mpr ⟨route, hf⟩, by rw [hf, Option.map_some, hc]⟩
  have hlen := hperm.length_eq
  rwa [length_map, length_map] at hlen

/-- The calls return in every order if and only if none of them has to grow a hash map that is blocked. If they do, all
of them succeed, and the router leads from the SSRCs and the address of each group to its session; the group has one
route. -/
theorem callAll_order (hashes : KeyHashes σ) (hapart : Apart groups) {calls : List (Call σ)}
    (hperm : calls.Perm (groups.flatMap PeerGroup.calls)) :
    ((∃ result, callAllOn hashes {} calls = .ok result) ↔ NeverBlocked hashes {} calls) ∧
    ∃ r : SessionRouter σ,
      (∀ result, callAllOn hashes {} calls = .ok result → result = (List.replicate calls.length .ok, r)) ∧
      r.numRoutes = groups.length ∧
      ∀ g ∈ groups,
        (∃ id route, r.routes.get id = some route ∧ route.cname = g.cname ∧
          ∀ s, s ∈ route.sources ↔ s ∈ g.sources) ∧
        (∀ s ∈ g.sources, r.findBySource s = .ok (g.attached.map Attachment.session)) ∧
        ∀ a ∈ g.attached, r.findByAddress a.sourceAddr = .ok (some a.session) := by
  obtain ⟨r, hr, hcons, h⟩ := callAll_progress hapart (fun c hc => hperm.mem_iff.mp hc)
    (hperm.nodup_iff.mpr (nodup_calls hapart)) (fun c _ => List.not_mem_nil) .empty Progress.empty
  obtain ⟨hroute, hgroup⟩ := routes_of_all h hapart fun c => by
    rw [List.append_nil, List.mem_reverse]
    exact hperm.mem_iff
  refine ⟨callAllOn_ok_iff hr, r, fun result hresult => ?_, numRoutes_eq hcons hapart hroute fun g hg => ?_,
    fun g hg => ?_⟩
  · obtain ⟨codes, r'⟩ := result
    exact (Except.ok.inj (hr.symm.trans (callAll_of_callAllOn hresult).1)).symm
  · obtain ⟨id, route, hf, hc, _⟩ := hgroup g hg
    exact ⟨id, route, hf, hc⟩
  · obtain ⟨id, route, hf, hc, hsources, hsession, haddr⟩ := hgroup g hg
    refine ⟨⟨id, route, hf, hc, hsources⟩, fun s hs => ?_, fun a ha => ?_⟩
    · unfold findBySource
      rw [hcons.maps.source.find hf ((hsources s).mpr hs)]
      simp only [hcons.maps.routeAt hf, ok_bind, pure_eq_ok, hsession]
    · have hunspec := g.addressed a ha
      have hkey : a.sourceAddr ∈ route.addressKeys :=
        Route.mem_addressKeys.mpr ⟨haddr a ha, hunspec⟩
      unfold findByAddress
      rw [if_neg hunspec, hcons.maps.address.find hf hkey]
      simp only [hcons.maps.routeAt hf, ok_bind, pure_eq_ok, hsession, Option.mem_def.mp ha,
        Option.map_some]

def twoGroups : List (PeerGroup Nat) :=
  [{ cname := letter 97 (by decide), named := by decide, sources := [1, 2], nodup := by decide
     nonempty := by decide, attached := some ⟨7, 2, .ipv4 1 1⟩, source_mem := by simp
     addressed := by simp },
   { cname := letter 98 (by decide), named := by decide, sources := [3], nodup := by decide
     nonempty := by decide, attached := none, source_mem := by simp, addressed := by simp }]

theorem twoGroups_apart : Apart twoGroups := by
  refine ⟨?_, ?_, ?_, ?_, ?_⟩ <;> simp [twoGroups, letter]

def plainHashes : KeyHashes Nat := { address := fun _ => 0, cname := fun _ => 0, session := fun _ => 0 }

/-- The session comes before its SSRC is linked. -/
theorem callAll_order_twoGroups : ∃ r : SessionRouter Nat,
    callAllOn plainHashes {} [.linkSource 1 (letter 97 (by decide)) (by decide), .addSession 7 2 (.ipv4 1 1),
      .linkSource 3 (letter 98 (by decide)) (by decide),
      .linkSource 2 (letter 97 (by decide)) (by decide)] = .ok ([.ok, .ok, .ok, .ok], r) ∧
    r.numRoutes = 2 ∧ r.findBySource 1 = .ok (some 7) := by
  have hperm : List.Perm [.linkSource 1 (letter 97 (by decide)) (by decide), .addSession 7 2 (.ipv4 1 1),
      .linkSource 3 (letter 98 (by decide)) (by decide),
      .linkSource 2 (letter 97 (by decide)) (by decide)] (twoGroups.flatMap PeerGroup.calls) :=
    .cons _ ((List.Perm.cons _ (List.Perm.swap ..)).trans (List.Perm.swap ..))
  obtain ⟨-, r, hsame, hn, hall⟩ := callAll_order plainHashes twoGroups_apart hperm
  have hrun : (callAllOn plainHashes {} [.linkSource 1 (letter 97 (by decide)) (by decide),
      .addSession 7 2 (.ipv4 1 1), .linkSource 3 (letter 98 (by decide)) (by decide),
      .linkSource 2 (letter 97 (by decide)) (by decide)]).toOption.isSome = true := by
    decide +kernel
  obtain ⟨result, hresult⟩ := Option.isSome_iff_exists.mp hrun
  have hok := toOption_eq_some hresult
  cases hsame result hok
  exact ⟨r, hok, hn, (hall _ List.mem_cons_self).2.1 1 (by decide)⟩

def ssrcs (first count : Nat) : List UInt32 := (List.range' first count).map UInt32.ofNat

/-- One participant with a hundred and fifty SSRCs. -/
def crowd : PeerGroup Nat where
  cname := letter 97 (by decide)
  named := by decide
  sources := ssrcs 0 31 ++ (ssrcs 31 31 ++ 154 :: ssrcs 62 87)
  nodup := by decide +kernel
  nonempty := by simp
  attached := some ⟨7, 154, .ipv4 1 1⟩
  source_mem := by simp
  addressed := by simp

theorem crowd_apart : Apart [crowd] := by
  refine ⟨List.nodup_singleton _, ?_, ?_, ?_, ?_⟩ <;> simp +contextual

/-- Its session comes when thirty-one SSRCs are linked, and the SSRC of the session is linked when it is the last one
in the embedded buckets. -/
def crowdCalls : List (Call Nat) :=
  (ssrcs 0 31).map crowd.link ++ .addSession 7 154 (.ipv4 1 1) ::
    (ssrcs 31 31 ++ 154 :: ssrcs 62 87).map crowd.link

theorem crowdCalls_perm : crowdCalls.Perm ([crowd].flatMap PeerGroup.calls) := by
  have hcalls : [crowd].flatMap PeerGroup.calls = (ssrcs 0 31).map crowd.link ++
      ((ssrcs 31 31 ++ 154 :: ssrcs 62 87).map crowd.link ++ [.addSession 7 154 (.ipv4 1 1)]) := by
    rw [← List.append_assoc, ← List.map_append]
    simp [PeerGroup.calls, crowd, Attachment.add]
  rw [hcalls]
  exact (List.perm_append_singleton _ _).symm.append_left _

/-- Linking that SSRC takes the last node out of the embedded buckets and leaves the cursor there; the hundred and
fiftieth node cannot be inserted. -/
theorem crowdCalls_panic : Apart [crowd] ∧ crowdCalls.Perm ([crowd].flatMap PeerGroup.calls) ∧
    ∀ hashes : KeyHashes Nat, hashes.source = hashsumInt32 →
      ¬ ∃ result, callAllOn hashes {} crowdCalls = .ok result := by
  refine ⟨crowd_apart, crowdCalls_perm, ?_⟩
  rintro hashes hsource ⟨⟨codes, r⟩, hrun⟩
  obtain ⟨hall, hfree⟩ := callAll_of_callAllOn hrun
  have hpanic : ((callAll {} crowdCalls).toOption.any fun x =>
      (x.2.sourceRouteMap.table hashsumInt32 embeddedBuckets).isOk) = false := by
    decide +kernel
  obtain ⟨table, htable, -⟩ := bind_eq_ok.mp (buckets_ok_iff.mpr (hfree nofun))
  rw [hsource] at htable
  rw [hall] at hpanic
  exact Bool.false_ne_true (hpanic.symm.trans (by show (NodeMap.table _ _ _).isOk = true; rw [htable]; rfl))

end SessionRouter
end Roc.Pipeline
