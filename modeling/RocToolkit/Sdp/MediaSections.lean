import RocToolkit.Sdp.Parser

/-!
# RocToolkit.Sdp.MediaSections

What `parse_sdp` makes of a session description. A description is given by the texts of its lines; every line
is read from its first letter to its end, where the last action is still to be done, either at the end of the
text or at the next line break (`LineEnd`).
-/

namespace Roc.Sdp

open List

open Roc.Core (ascii isDigit isAlnum parseLong decimal)

open State MediaDescription Option

/-! ## Descriptions -/

structure Digits where
  text : List UInt8
  ne_nil : text ≠ []
  digits : ∀ c ∈ text, isDigit c = true

def Digits.value (d : Digits) : Int := decimal d.text

structure AddrText {α : Type} (S : AddrSyntax α) where
  family : Family
  text : List UInt8
  addr : α
  ne_nil : text ≠ []
  visible : ∀ c ∈ text, nonWs c = true
  accepted : S.setHostPort family text = some addr

/-- A `c=` line; the TTL is written after an IPv4 address. -/
structure Connection {α : Type} (S : AddrSyntax α) extends AddrText S where
  ttl : Digits

/-- An `m=` line with the `c=` lines after it. -/
structure MediaSection {α : Type} (S : AddrSyntax α) where
  type : MediaType
  typeText : List UInt8
  type_eq : mediaTypeOf typeText = some type
  port : Digits
  port_le : port.value ≤ 65535
  nbPorts : Option Digits
  nbPorts_le : ∀ n ∈ nbPorts, n.value ≤ 65535
  fmt : Digits
  fmts : List Digits
  fmts_lt : ∀ f ∈ fmt :: fmts, f.value < 4294967296
  connections : List (Connection S)

structure Description {α : Type} (S : AddrSyntax α) where
  version : Digits
  username : List UInt8
  username_ne_nil : username ≠ []
  username_visible : ∀ c ∈ username, nonWs c = true
  sessId : Digits
  sessVersion : Digits
  origin : AddrText S
  session : Option (Connection S)
  media : List (MediaSection S)

variable {α : Type} {S : AddrSyntax α}

def crlf : List UInt8 := [cr, lf]

def Family.name : Family → List UInt8
  | .ipv4 => ascii ['I', 'N', ' ', 'I', 'P', '4', ' ']
  | .ipv6 => ascii ['I', 'N', ' ', 'I', 'P', '6', ' ']

def Connection.render (c : Connection S) : List UInt8 := ascii ['c', '='] ++ c.family.name ++ c.text ++
    match c.family with
    | .ipv4 => '/'.toUInt8 :: c.ttl.text
    | .ipv6 => []

def nbPortsText : Option Digits → List UInt8
  | none => []
  | some n => '/'.toUInt8 :: n.text

def MediaSection.fields (m : MediaSection S) : List UInt8 :=
  ascii ['m', '='] ++ m.typeText ++ [space] ++ m.port.text ++ nbPortsText m.nbPorts ++ [space] ++
    ascii ['R', 'T', 'P', '/', 'A', 'V', 'P'] ++ (m.fmt :: m.fmts).flatMap fun f => space :: f.text

def MediaSection.render (m : MediaSection S) : List UInt8 :=
  crlf ++ m.fields ++ m.connections.flatMap fun c => crlf ++ c.render

def Description.render (d : Description S) : List UInt8 :=
  ascii ['v', '='] ++ d.version.text ++ crlf ++ ascii ['o', '='] ++ d.username ++ [space] ++ d.sessId.text ++
    [space] ++ d.sessVersion.text ++ [space] ++ d.origin.family.name ++ d.origin.text ++
    (match d.session with
      | none => []
      | some c => crlf ++ c.render) ++
    d.media.flatMap MediaSection.render

def MediaSection.denoted (m : MediaSection S) : MediaDescription α where
  type := m.type
  port := m.port.value
  nbPorts := (m.nbPorts.map Digits.value).getD 0
  transport := .rtpAvp
  payloadIds := (m.fmt :: m.fmts).map Digits.value
  connectionData := m.connections.map fun c => c.addr

def MediaSection.parsed (m : MediaSection S) : MediaDescription α where
  type := m.type
  port := (m.nbPorts.map Digits.value).getD m.port.value
  nbPorts := 0
  transport := .rtpAvp
  payloadIds := (m.fmt :: m.fmts).map Digits.value
  connectionData := m.connections.map fun c => c.addr

/-! ## Tokens -/

namespace State

def moved (st : State α) (pc : Pc) (d : SessionDescription α) : State α := { st with pc, result := d }

end State

section
variable (st : State α) (d : SessionDescription α) {w : List UInt8}

theorem isDigit_ne {c : UInt8} (h : isDigit c = true) :
    c ≠ '/'.toUInt8 ∧ c ≠ space ∧ c ≠ cr ∧ nonWs c = true ∧ tokenChar c = true := by
  refine ⟨?_, ?_, ?_, ?_, ?_⟩
  · rintro rfl
    exact absurd h (by decide)
  · rintro rfl
    exact absurd h (by decide)
  · rintro rfl
    exact absurd h (by decide)
  · unfold isDigit at h
    unfold nonWs
    simp only [Bool.and_eq_true, decide_eq_true_eq] at h ⊢
    exact ⟨UInt8.le_trans (by decide) h.1, UInt8.le_trans h.2 (by decide)⟩
  · simp [tokenChar, isAlnum, h]

variable {f : List UInt8 → Pc} {sec : Section} {text : List UInt8} {p : UInt8 → Bool}

theorem reads_collect
    (hf : ∀ (st : State α) t c, st.pc = f t → p c = true → step S st c = .ok { st with pc := f (t ++ [c]) })
    (t : List UInt8) (h : ∀ c ∈ w, p c = true) :
    (machine S).Reads (st.moved (f t) d) w (st.moved (f (t ++ w)) d) :=
  Machine.Reads.token (m := machine S) (f := fun t => st.moved (f t) d) (p := fun c => p c = true)
    (fun t c hc => hf _ t c rfl hc) t h

/-! ## Ends of lines -/

structure LineEnd (S : AddrSyntax α) (sec : Section) (st : State α) (d : SessionDescription α) : Prop where
  eof : eof S st = .ok d
  step : step S st cr = .ok (st.moved (.newline sec) d)

variable {st d} in
theorem LineEnd.reads (h : LineEnd S sec st d) : (machine S).Reads st crlf (st.moved (.line sec) d) :=
  .cons h.step (.single rfl)

variable {st d} in
theorem lineEnd_address (owner : Owner) {family : Family} (hne : text ≠ [])
    (hpc : st.pc = .address owner family text) (h : setAddress S st owner family text = some d) :
    LineEnd S owner.section st d := by
  have hcr : nonWs cr = false := by decide
  refine ⟨?_, ?_⟩
  · simp only [eof, hpc, if_neg hne, h, finish]
  · simp only [step, hpc, collect, hcr, Bool.false_eq_true, if_false, hne, ne_eq, not_false_eq_true,
      and_self, if_true, h]
    rfl

variable {st d} in
theorem lineEnd_ttl {owner : Owner} {ttl : List UInt8} (hne : ttl ≠ [])
    (hpc : st.pc = .addressTtl owner text (some ttl)) (hd : st.result = d) : LineEnd S owner.section st d := by
  have hcr : nonWs cr = false := by decide
  have hslash : cr ≠ '/'.toUInt8 := by decide
  have hany : ((some ttl).any fun d => !d.isEmpty) = true := by simpa using hne
  subst hd
  refine ⟨?_, ?_⟩
  · simp only [eof, hpc, hany, if_true]
  · simp only [step, hpc, hcr, hslash, hany, Bool.false_eq_true, if_false, and_self, if_true]
    rfl

variable {st d} in
theorem lineEnd_fmt (hne : text ≠ []) (hpc : st.pc = .mediaFmt text)
    (h : addMediaPayloadId st.result text = some d) : LineEnd S .media st d := by
  have hcr : tokenChar cr = false := by decide
  have hspace : cr ≠ space := by decide
  refine ⟨?_, ?_⟩
  · simp only [eof, hpc, if_neg hne, h, finish]
  · simp only [step, hpc, hcr, hspace, hne, Bool.false_eq_true, if_false, false_and, ne_eq, not_false_eq_true,
      and_self, if_true, h]
    rfl

/-! ## The lines -/

section
variable (owner : Owner)
include owner

theorem reads_family (family : Family) :
    (machine S).Reads (st.moved (.nettype owner (ascii ['I', 'N', ' ', 'I', 'P'])) d) family.name
      (st.moved (if owner ≠ .origin ∧ family = .ipv4 then .addressTtl owner [] none else .address owner family [])
        d) := by
  cases family with
  | ipv4 | ipv6 => exact .cons rfl (.cons rfl (.cons rfl (.cons rfl (.cons rfl (.cons rfl (.single rfl))))))

theorem reads_address (family : Family) (t : List UInt8) (h : ∀ c ∈ w, nonWs c = true) :
    (machine S).Reads (st.moved (.address owner family t) d) w (st.moved (.address owner family (t ++ w)) d) :=
  reads_collect st d (p := nonWs) (f := .address owner family)
    (fun st t c hpc hc => by simp only [step, hpc, collect, hc, if_true]; rfl) t h

theorem reads_address4 (t : List UInt8) (h : ∀ c ∈ w, (nonWs c && c != '/'.toUInt8) = true) :
    (machine S).Reads (st.moved (.addressTtl owner t none) d) w (st.moved (.addressTtl owner (t ++ w) none) d) :=
  reads_collect st d (p := fun c => nonWs c && c != '/'.toUInt8) (f := fun t => .addressTtl owner t none)
    (fun st t c hpc hc => by
      simp only [Bool.and_eq_true, bne_iff_ne] at hc
      simp only [step, hpc, hc.1, if_neg hc.2, if_true]
      rfl) t h

theorem reads_ttl (text : List UInt8) (h : ∀ c ∈ w, isDigit c = true) :
    (machine S).Reads (st.moved (.addressTtl owner text (some [])) d) w
      (st.moved (.addressTtl owner (text ++ w) (some w)) d) := by
  have := Machine.Reads.token (m := machine S)
    (f := fun t => st.moved (.addressTtl owner (text ++ t) (some t)) d) (p := fun c => isDigit c = true)
    (w := w) (fun t c hc => by
      obtain ⟨hslash, -, -, hvis, -⟩ := isDigit_ne hc
      simp only [machine, step, moved, if_neg hslash, hvis, hc, if_true, bind_some, goTo, append_assoc]) [] h
  simpa using this

end

theorem reads_connection (c : Connection S) (sec : Section) (owner : Owner) (d' : SessionDescription α)
    (hline : step S (st.moved (.line sec) d) 'c'.toUInt8 =
      .ok (st.moved (.nettype owner (ascii ['=', 'I', 'N', ' ', 'I', 'P'])) d))
    (howner : owner ≠ .origin)
    (hset : ∀ st : State α, st.result = d → setAddress S st owner c.family c.text = some d') :
    ∃ st', (machine S).Reads (st.moved (.line sec) d) c.render st' ∧ LineEnd S owner.section st' d' := by
  have hhead : (machine S).Reads (st.moved (.line sec) d) (ascii ['c', '=']) 
      (st.moved (.nettype owner (ascii ['I', 'N', ' ', 'I', 'P'])) d) := .cons hline (.single rfl)
  have hfamily := hhead.append (reads_family st d owner c.family)
  obtain ⟨⟨family, text, addr, hne, hvis, hacc⟩, ttl⟩ := c
  unfold Connection.render
  cases family with
  | ipv4 =>
    have hslash : '/'.toUInt8 ∉ text := S.no_slash hacc
    have htext := reads_address4 (S := S) st d owner [] (w := text) fun c hc => by
      have : c ≠ '/'.toUInt8 := fun h => hslash (h ▸ hc)
      simp [hvis c hc, this]
    have hend : (machine S).Reads (st.moved (.addressTtl owner text none) d) ('/'.toUInt8 :: ttl.text)
        (st.moved (.addressTtl owner (text ++ ['/'.toUInt8] ++ ttl.text) (some ttl.text)) d') := by
      have hact : (machine S).step (st.moved (.addressTtl owner text none) d) '/'.toUInt8 =
          .ok (st.moved (.addressTtl owner (text ++ ['/'.toUInt8]) (some [])) d') := by
        have := hset (st.moved (.addressTtl owner text none) d) rfl
        simp only [machine, step, moved, if_true, if_neg hne] at this ⊢
        rw [this]
        rfl
      exact .cons hact (reads_ttl st d' owner _ ttl.digits)
    rw [if_pos ⟨howner, rfl⟩] at hfamily
    exact ⟨_, (hfamily.append htext).append hend, lineEnd_ttl ttl.ne_nil rfl rfl⟩
  | ipv6 =>
    have htext := reads_address (S := S) st d owner .ipv6 [] hvis
    rw [if_neg (by simp)] at hfamily
    exact ⟨_, (hfamily.append htext).append (.nil _), lineEnd_address owner hne rfl (hset _ rfl)⟩

def SessionDescription.withMedia (d : SessionDescription α) (m : MediaDescription α) : SessionDescription α :=
  { d with mediaDescriptions := d.mediaDescriptions ++ [m] }

theorem modifyLast_withMedia (m : MediaDescription α) (f : MediaDescription α → Option (MediaDescription α)) :
    (d.withMedia m).modifyLast f = (f m).map d.withMedia := by
  simp only [SessionDescription.modifyLast, SessionDescription.withMedia, List.getLast?_concat, dropLast_concat]
  rfl

theorem reads_mediaType {type : MediaType} (h : mediaTypeOf text = some type) :
    (machine S).Reads (st.moved (.mediaType []) d) (text ++ [space])
      (st.moved (.mediaPort []) (d.withMedia { type })) := by
  have hletters : text ≠ [] ∧ ∀ c ∈ text, isLetter c = true := by
    unfold mediaTypeOf at h
    split at h
    · next ht => subst ht; exact ⟨by decide, all_eq_true.mp rfl⟩
    · split at h
      · next ht => subst ht; exact ⟨by decide, all_eq_true.mp rfl⟩
      · split at h
        · next ht => subst ht; exact ⟨by decide, all_eq_true.mp rfl⟩
        · split at h
          · next ht => subst ht; exact ⟨by decide, all_eq_true.mp rfl⟩
          · cases h
  have htext : (machine S).Reads (st.moved (.mediaType []) d) text (st.moved (.mediaType text) (d.withMedia {})) := by
    cases text with
    | nil => exact absurd rfl hletters.1
    | cons b rest =>
      have hb : (machine S).step (st.moved (.mediaType []) d) b = .ok (st.moved (.mediaType [b]) (d.withMedia {})) := by
        simp only [machine, step, moved, hletters.2 b mem_cons_self, if_true]
        rfl
      refine .cons hb ?_
      exact Machine.Reads.token (m := machine S)
        (f := fun t => st.moved (.mediaType (b :: t)) (d.withMedia {})) (p := fun c => isLetter c = true)
        (fun t c hc => by simp only [machine, step, moved, hc, if_true]; rfl) []
        fun c hc => hletters.2 c (mem_cons_of_mem _ hc)
  refine htext.append (.single ?_)
  have hspace : isLetter space = false := by decide
  simp only [machine, step, moved, hspace, h, Bool.false_eq_true, if_false, if_true]
  rw [modifyLast_withMedia]
  rfl

theorem Digits.parse (n : Digits) (h : n.value ≤ 4294967295) : parseLong n.text = some n.value := by
  rw [Core.parseLong_digits n.ne_nil n.digits, if_pos]
  · rfl
  · unfold value at h
    unfold Core.longMax
    omega

theorem setMediaPort_digits (n : Digits) (h : n.value ≤ 65535) (m : MediaDescription α) :
    setMediaPort (d.withMedia m) n.text = some (d.withMedia { m with port := n.value }) := by
  have hpos : 0 ≤ n.value := Int.natCast_nonneg _
  unfold setMediaPort
  rw [n.parse (by omega), bind_some, modifyLast_withMedia]
  simp only [setPort]
  rw [if_neg (by omega)]
  rfl

theorem addMediaPayloadId_digits (n : Digits) (h : n.value < 4294967296) (m : MediaDescription α) :
    addMediaPayloadId (d.withMedia m) n.text =
      some (d.withMedia { m with payloadIds := m.payloadIds ++ [n.value] }) := by
  have hpos : 0 ≤ n.value := Int.natCast_nonneg _
  unfold addMediaPayloadId
  rw [n.parse (by omega), bind_some, modifyLast_withMedia]
  simp only [addPayloadId, Int.emod_eq_of_lt hpos h]
  rfl

section
variable (t : List UInt8) (h : ∀ c ∈ w, isDigit c = true)
include t h

theorem reads_port : (machine S).Reads (st.moved (.mediaPort t) d) w (st.moved (.mediaPort (t ++ w)) d) :=
  reads_collect st d (p := isDigit) (f := .mediaPort)
    (fun st t c hpc hc => by simp only [step, hpc, hc, if_true]; rfl) t h

theorem reads_nbPorts : (machine S).Reads (st.moved (.mediaNbPorts t) d) w (st.moved (.mediaNbPorts (t ++ w)) d) :=
  reads_collect st d (p := isDigit) (f := .mediaNbPorts)
    (fun st t c hpc hc => by simp only [step, hpc, collect, hc, if_true]; rfl) t h

end

def transportStart : Pc := .mediaTransport (ascii ['R', 'T', 'P', '/', 'A', 'V', 'P'])

theorem reads_ports (port : Digits) (hport : port.value ≤ 65535) (nbPorts : Option Digits)
    (hnb : ∀ n ∈ nbPorts, n.value ≤ 65535) (m : MediaDescription α) :
    (machine S).Reads (st.moved (.mediaPort []) (d.withMedia m)) (port.text ++ nbPortsText nbPorts ++ [space])
      (st.moved transportStart (d.withMedia { m with port := (nbPorts.map Digits.value).getD port.value })) := by
  have hspace : isDigit space = false := by decide
  have hdigits := reads_port (S := S) st (d.withMedia m) [] port.digits
  cases nbPorts with
  | none =>
    refine (hdigits.append (.nil _)).append (.single ?_)
    simp only [machine, step, moved, nil_append, hspace, Bool.false_eq_true, if_false, ne_eq,
      port.ne_nil, not_false_eq_true, and_true, if_true, setMediaPort_digits d port hport]
    rfl
  | some n =>
    have hslash : isDigit '/'.toUInt8 = false := by decide
    have hfirst : (machine S).step (st.moved (.mediaPort port.text) (d.withMedia m)) '/'.toUInt8 =
        .ok (st.moved (.mediaNbPorts []) (d.withMedia { m with port := port.value })) := by
      simp only [machine, step, moved, hslash, Bool.false_eq_true, if_false, ne_eq, port.ne_nil,
        not_false_eq_true, and_true, if_true, setMediaPort_digits d port hport]
      rfl
    have hsecond : (machine S).step (st.moved (.mediaNbPorts n.text) (d.withMedia { m with port := port.value })) space =
        .ok (st.moved transportStart (d.withMedia { m with port := n.value })) := by
      simp only [machine, step, moved, collect, hspace, Bool.false_eq_true, if_false, ne_eq, n.ne_nil,
        not_false_eq_true, and_self, if_true, setMediaPort_digits d n (hnb n rfl)]
      rfl
    exact (hdigits.append (.cons hfirst (reads_nbPorts st _ [] n.digits))).append (.single hsecond)

theorem reads_transport (m : MediaDescription α) :
    (machine S).Reads (st.moved transportStart (d.withMedia m)) (ascii ['R', 'T', 'P', '/', 'A', 'V', 'P'] ++ [space])
      (st.moved (.mediaFmt []) (d.withMedia { m with transport := .rtpAvp })) := by
  have hword : (machine S).Reads (st.moved transportStart (d.withMedia m))
      (ascii ['R', 'T', 'P', '/', 'A', 'V', 'P']) (st.moved (.mediaTransport []) (d.withMedia m)) :=
    .cons rfl (.cons rfl (.cons rfl (.cons rfl (.cons rfl (.cons rfl (.single rfl))))))
  refine hword.append (.single ?_)
  simp only [machine, step, moved, if_true]
  rw [modifyLast_withMedia]
  rfl

theorem reads_fmt (t : List UInt8) (h : ∀ c ∈ w, isDigit c = true) :
    (machine S).Reads (st.moved (.mediaFmt t) d) w (st.moved (.mediaFmt (t ++ w)) d) :=
  reads_collect st d (p := tokenChar) (f := .mediaFmt)
    (fun st t c hpc hc => by simp only [step, hpc, hc, if_true]; rfl) t
    fun c hc => (isDigit_ne (h c hc)).2.2.2.2

theorem reads_fmts (f : Digits) (fs : List Digits) (hlt : ∀ x ∈ f :: fs, x.value < 4294967296)
    (m : MediaDescription α) :
    ∃ st', (machine S).Reads (st.moved (.mediaFmt []) (d.withMedia m))
        (f.text ++ fs.flatMap fun x => space :: x.text) st' ∧
      LineEnd S .media st' (d.withMedia { m with payloadIds := m.payloadIds ++ (f :: fs).map Digits.value }) := by
  induction fs generalizing f m with
  | nil =>
    rw [flatMap_nil, append_nil]
    refine ⟨_, reads_fmt st (d.withMedia m) [] f.digits, lineEnd_fmt f.ne_nil rfl ?_⟩
    exact addMediaPayloadId_digits d f (hlt f mem_cons_self) m
  | cons f' fs ih =>
    have hspace : tokenChar space = false := by decide
    have hadd : (machine S).step (st.moved (.mediaFmt f.text) (d.withMedia m)) space =
        .ok (st.moved (.mediaFmt []) (d.withMedia { m with payloadIds := m.payloadIds ++ [f.value] })) := by
      simp only [machine, step, moved, hspace, Bool.false_eq_true, if_false, ne_eq, f.ne_nil,
        not_false_eq_true, and_self, if_true, addMediaPayloadId_digits d f (hlt f mem_cons_self)]
      rfl
    obtain ⟨st', hread, hend⟩ := ih f' (forall_mem_cons.mp hlt).2
      { m with payloadIds := m.payloadIds ++ [f.value] }
    refine ⟨st', (reads_fmt st (d.withMedia m) [] f.digits).append (.cons hadd hread), ?_⟩
    simpa using hend

open MediaSection

theorem reads_mediaLine (m : MediaSection S) (sec : Section) :
    ∃ st', (machine S).Reads (st.moved (.line sec) d) m.fields st' ∧
      LineEnd S .media st' (d.withMedia { m.parsed with connectionData := [] }) := by
  have hhead : (machine S).Reads (st.moved (.line sec) d) (ascii ['m', '=']) (st.moved (.mediaType []) d) := by
    cases sec <;> exact .cons rfl (.single rfl)
  have htype := hhead.append (reads_mediaType st d m.type_eq)
  have hports := htype.append (reads_ports st d m.port m.port_le m.nbPorts m.nbPorts_le _)
  have htransport := hports.append (reads_transport st d _)
  obtain ⟨st', hfmts, hend⟩ := reads_fmts (S := S) st d m.fmt m.fmts m.fmts_lt
    { type := m.type, port := (m.nbPorts.map Digits.value).getD m.port.value, transport := .rtpAvp }
  refine ⟨st', ?_, hend⟩
  have hread := htransport.append hfmts
  unfold fields
  simpa only [append_assoc, flatMap_cons, cons_append, nil_append, singleton_append] using hread

theorem reads_mediaConnection (c : Connection S) (m : MediaDescription α) :
    ∃ st', (machine S).Reads (st.moved (.line .media) (d.withMedia m)) c.render st' ∧
      LineEnd S .media st' (d.withMedia { m with connectionData := m.connectionData ++ [c.addr] }) := by
  refine reads_connection st (d.withMedia m) c .media .media _ rfl (by simp) fun st hst => ?_
  rw [setAddress, addMediaConnectionData, hst, modifyLast_withMedia]
  simp only [addConnectionData, c.accepted, map_some]

theorem reads_mediaConnections (cs : List (Connection S)) {m : MediaDescription α} {st : State α}
    (h : LineEnd S .media st (d.withMedia m)) :
    ∃ st', (machine S).Reads st (cs.flatMap fun c => crlf ++ c.render) st' ∧
      LineEnd S .media st' (d.withMedia
        { m with connectionData := m.connectionData ++ cs.map fun c => c.addr }) := by
  induction cs generalizing st m with
  | nil => exact ⟨st, .nil _, by simpa using h⟩
  | cons c cs ih =>
    obtain ⟨st1, hread, hend⟩ := reads_mediaConnection st d c m
    obtain ⟨st2, hreads, hend2⟩ := ih hend
    exact ⟨st2, (h.reads.append hread).append hreads, by simpa using hend2⟩

theorem reads_section (m : MediaSection S) {st : State α} (h : LineEnd S sec st d) :
    ∃ st', (machine S).Reads st m.render st' ∧ LineEnd S .media st' (d.withMedia m.parsed) := by
  obtain ⟨st1, hline, hend⟩ := reads_mediaLine st d m sec
  obtain ⟨st2, hconns, hend2⟩ := reads_mediaConnections d m.connections hend
  exact ⟨st2, (h.reads.append hline).append hconns, hend2⟩

theorem reads_sections (ms : List (MediaSection S)) {st : State α} (h : LineEnd S sec st d) :
    ∃ st' sec', (machine S).Reads st (ms.flatMap render) st' ∧
      LineEnd S sec' st' { d with mediaDescriptions := d.mediaDescriptions ++ ms.map parsed } := by
  induction ms generalizing st sec d with
  | nil => exact ⟨st, sec, .nil _, by simpa using h⟩
  | cons m ms ih =>
    obtain ⟨st1, hread, hend⟩ := reads_section d m h
    obtain ⟨st2, sec2, hreads, hend2⟩ := ih _ hend
    refine ⟨st2, sec2, hread.append hreads, ?_⟩
    simpa [SessionDescription.withMedia] using hend2

theorem reads_field {stop : UInt8} {st' : State α}
    {next : State α → List UInt8 → Except Unit (State α)}
    (hf : ∀ (st : State α) t c, st.pc = f t → step S st c = st.collect t c p f stop (next st t))
    (hstop : p stop = false) (hne : w ≠ []) (h : ∀ c ∈ w, p c = true) (hnext : next (st.moved (f w) d) w = .ok st') :
    (machine S).Reads (st.moved (f []) d) (w ++ [stop]) st' := by
  have hread := reads_collect (S := S) st d (p := p) (f := f)
    (fun st t c hpc hc => by rw [hf st t c hpc, collect, if_pos hc, goTo]) [] h
  refine hread.append (.single ?_)
  have hstep := hf (st.moved (f w) d) w stop rfl
  rw [collect, hstop, if_neg Bool.false_ne_true, if_pos ⟨rfl, hne⟩, hnext] at hstep
  exact hstep

theorem setOrigin_accepted (a : AddrText S) : ∃ d, setOrigin S st a.family a.text = some d ∧
    d.mediaDescriptions = st.result.mediaDescriptions := by
  rw [setOrigin, a.accepted]
  exact ⟨_, rfl, rfl⟩

theorem reads_origin (D : Description S) : ∃ st d, (machine S).Reads { pc := .version (ascii ['v', '=']) }
        (ascii ['v', '='] ++ D.version.text ++ crlf ++ ascii ['o', '='] ++ D.username ++ [space] ++ D.sessId.text ++
          [space] ++ D.sessVersion.text ++ [space] ++ D.origin.family.name ++ D.origin.text) st ∧
      LineEnd S .origin st d ∧ d.mediaDescriptions = [] := by
  let st0 : State α := { pc := .version (ascii ['v', '=']) }
  let st1 : State α := { st0 with username := D.username }
  let st2 : State α := { st1 with sessId := D.sessId.text }
  have hv : (machine S).Reads st0 (ascii ['v', '=']) (st0.moved (.versionDigits []) {}) := .cons rfl (.single rfl)
  have hversion := reads_field (S := S) st0 {} (f := .versionDigits)
    (fun st t c hpc => by rw [step, hpc]) (by decide) D.version.ne_nil D.version.digits rfl
  have ho : (machine S).Reads (st0.moved (.origin [lf, 'o'.toUInt8, '='.toUInt8]) {}) (lf :: ascii ['o', '='])
      (st0.moved (.username []) {}) := .cons rfl (.cons rfl (.single rfl))
  have huser : (machine S).Reads _ _ (st1.moved (.sessId []) {}) := reads_field (S := S) st0 {} (f := .username)
    (fun st t c hpc => by rw [step, hpc]) (by decide) D.username_ne_nil D.username_visible rfl
  have hid : (machine S).Reads _ _ (st2.moved (.sessVersion []) {}) := reads_field (S := S) st1 {} (f := .sessId)
    (fun st t c hpc => by rw [step, hpc]) (by decide) D.sessId.ne_nil D.sessId.digits rfl
  have hver := reads_field (S := S) st2 {} (f := .sessVersion)
    (fun st t c hpc => by rw [step, hpc]) (by decide) D.sessVersion.ne_nil D.sessVersion.digits rfl
  have hfamily := reads_family (S := S) st2 {} .origin D.origin.family
  rw [if_neg (by simp)] at hfamily
  have htext := reads_address (S := S) st2 {} .origin D.origin.family [] D.origin.visible
  obtain ⟨d, hset, hmedia⟩ := setOrigin_accepted
    (st2.moved (.address .origin D.origin.family D.origin.text) {}) D.origin
  refine ⟨_, d, ?_, lineEnd_address .origin D.origin.ne_nil rfl hset, hmedia⟩
  have hread := ((hv.append hversion).append ho).append huser
  simpa [crlf] using (((hread.append hid).append hver).append hfamily).append htext

theorem reads_session (c : Option (Connection S)) {st : State α} {d : SessionDescription α}
    (h : LineEnd S .origin st d) (hmedia : d.mediaDescriptions = []) :
    ∃ sec st' d', (machine S).Reads st (match c with
        | none => []
        | some c => crlf ++ c.render) st' ∧
      LineEnd S sec st' d' ∧ d'.mediaDescriptions = [] := by
  cases c with
  | none => exact ⟨.origin, st, d, .nil _, h, hmedia⟩
  | some c =>
    obtain ⟨st', hread, hend⟩ := reads_connection st d c .origin .session
      { d with sessionConnectionData := some c.addr } rfl (by simp) fun st hst => by
        rw [setAddress, setSessionConnectionData, hst, c.accepted]
        rfl
    exact ⟨_, st', _, h.reads.append hread, hend, hmedia⟩

theorem parseSdp_render (D : Description S) :
    ∃ r, parseSdp S D.render {} = some r ∧ r.mediaDescriptions = D.media.map parsed := by
  obtain ⟨st1, d1, horigin, hend1, hmedia1⟩ := reads_origin D
  obtain ⟨sec, st2, d2, hsession, hend2, hmedia2⟩ := reads_session D.session hend1 hmedia1
  obtain ⟨st3, sec', hmedia, hend3⟩ := reads_sections d2 D.media hend2
  have hrun := Machine.run_reads ((horigin.append hsession).append hmedia) []
  rw [append_nil] at hrun
  rw [hmedia2, nil_append] at hend3
  refine ⟨{ d2 with mediaDescriptions := D.media.map parsed }, ?_, rfl⟩
  rw [parseSdp, Description.render, hrun]
  exact congrArg Except.toOption hend3.eof

end

/-! ## Main result -/

theorem MediaSection.parsed_eq_denoted (m : MediaSection S) :
    m.parsed = m.denoted ↔ ∀ n ∈ m.nbPorts, n.value = 0 ∧ m.port.value = 0 := by
  unfold parsed denoted
  rw [MediaDescription.mk.injEq]
  cases m.nbPorts with
  | none => simp
  | some n => simp only [map_some, getD_some, mem_def, some.injEq, true_and, and_true, forall_eq']; omega

def Faithful (S : AddrSyntax α) (D : Description S) : Prop :=
  ∃ r, parseSdp S D.render {} = some r ∧ r.mediaDescriptions = D.media.map MediaSection.denoted

/-- A number of ports is taken for the port: both must be zero for the section to be decoded as written. -/
theorem faithful_iff (D : Description S) :
    Faithful S D ↔ ∀ m ∈ D.media, ∀ n ∈ m.nbPorts, n.value = 0 ∧ m.port.value = 0 := by
  obtain ⟨r, hparse, hmedia⟩ := parseSdp_render D
  constructor
  · rintro ⟨r', hparse', hmedia'⟩ m hm
    rw [hparse, Option.some.injEq] at hparse'
    subst hparse'
    rw [hmedia, List.map_inj_left] at hmedia'
    exact m.parsed_eq_denoted.mp (hmedia' m hm)
  · intro h
    refine ⟨r, hparse, hmedia.trans (List.map_inj_left.mpr fun m hm => ?_)⟩
    exact m.parsed_eq_denoted.mpr (h m hm)

def loopback : AddrSyntax Unit where
  setHostPort family text :=
    if family = .ipv4 ∧ text = ascii ['1', '2', '7', '.', '0', '.', '0', '.', '1'] then some () else none
  no_slash h := by
    split at h
    · next ht => rw [ht.2]; decide
    · cases h

def loopbackText : AddrText loopback where
  family := .ipv4
  text := ascii ['1', '2', '7', '.', '0', '.', '0', '.', '1']
  addr := ()
  ne_nil := by decide
  visible := List.all_eq_true.mp rfl
  accepted := rfl

def zero : Digits := ⟨ascii ['0'], by decide, List.all_eq_true.mp rfl⟩

/-- `m=audio 5004/2 RTP/AVP 10`. -/
def twoPorts : MediaSection loopback where
  type := .audio
  typeText := ascii ['a', 'u', 'd', 'i', 'o']
  type_eq := rfl
  port := ⟨ascii ['5', '0', '0', '4'], by decide, List.all_eq_true.mp rfl⟩
  port_le := by decide
  nbPorts := some ⟨ascii ['2'], by decide, List.all_eq_true.mp rfl⟩
  nbPorts_le := by decide
  fmt := ⟨ascii ['1', '0'], by decide, List.all_eq_true.mp rfl⟩
  fmts := []
  fmts_lt := by decide
  connections := []

def twoPortsDescription : Description loopback where
  version := zero
  username := ascii ['-']
  username_ne_nil := by decide
  username_visible := List.all_eq_true.mp rfl
  sessId := zero
  sessVersion := zero
  origin := loopbackText
  session := none
  media := [twoPorts]

/-- Port 5004 with two ports is decoded as port 2. -/
theorem twoPorts_taken_for_port :
    ¬ Faithful loopback twoPortsDescription ∧
    (parseSdp loopback twoPortsDescription.render {}).map
      (fun r => r.mediaDescriptions.map fun m => (m.port, m.nbPorts)) = some [(2, 0)] := by
  refine ⟨?_, by decide⟩
  rintro ⟨r, hparse, hmedia⟩
  have hport : (parseSdp loopback twoPortsDescription.render {}).map
      (fun r => r.mediaDescriptions.map fun m => (m.port, m.nbPorts)) = some [(2, 0)] := by decide
  rw [hparse, Option.map_some, hmedia] at hport
  exact absurd hport (by decide)

end Roc.Sdp
