import RocToolkit.Core.Ctype
import RocToolkit.Lib.Machine

/-!
# RocToolkit.Sdp.Parser

Session descriptions: the machine of `roc_sdp/parser.rl`, whose actions work on the media description that was
added last. Addresses are read by a setter that stands for `inet_pton`. Allocations succeed.
-/

namespace Roc.Sdp

open Roc.Core (ascii isDigit isAlnum parseLong)

inductive Family where
  | ipv4
  | ipv6
deriving DecidableEq, Repr

/-- `set_host_port` of a text in a buffer of `MaxStrLen`. -/
structure AddrSyntax (α : Type) where
  setHostPort : Family → List UInt8 → Option α
  /-- An IPv4 address has no slash in it. -/
  no_slash : ∀ {text : List UInt8} {a : α}, setHostPort .ipv4 text = some a → '/'.toUInt8 ∉ text

inductive MediaType where
  | none
  | audio
  | video
  | text
  | application
deriving DecidableEq, Repr

inductive MediaTransport where
  | none
  | rtpAvp
deriving DecidableEq, Repr

structure MediaDescription (α : Type) where
  type : MediaType := .none
  port : Int := 0
  nbPorts : Int := 0
  transport : MediaTransport := .none
  payloadIds : List Int := []
  connectionData : List α := []
deriving DecidableEq, Repr

structure SessionDescription (α : Type) where
  guid : List UInt8 := []
  originUnicastAddress : Option α := none
  sessionConnectionData : Option α := none
  mediaDescriptions : List (MediaDescription α) := []
deriving DecidableEq, Repr

variable {α : Type} (S : AddrSyntax α)

namespace MediaDescription

variable {α : Type}

def setPort (m : MediaDescription α) (port : Int) : Option (MediaDescription α) :=
  if port < 0 ∨ port > 65535 then none else some { m with port }

def setNbPorts (m : MediaDescription α) (nbPorts : Int) : Option (MediaDescription α) :=
  if nbPorts < 0 ∨ nbPorts > 65535 then none else some { m with nbPorts }

/-- The argument is converted to `unsigned`. -/
def addPayloadId (m : MediaDescription α) (payloadId : Int) : Option (MediaDescription α) :=
  some { m with payloadIds := m.payloadIds ++ [payloadId % 4294967296] }

def addConnectionData (S : AddrSyntax α) (m : MediaDescription α) (family : Family) (text : List UInt8) :
    Option (MediaDescription α) :=
  (S.setHostPort family text).map fun a => { m with connectionData := m.connectionData ++ [a] }

end MediaDescription

namespace SessionDescription

variable {α : Type}

def addMediaDescription (d : SessionDescription α) : SessionDescription α :=
  { d with mediaDescriptions := d.mediaDescriptions ++ [{}] }

/-- An action on `last_media_description()`, which is not null. -/
def modifyLast (d : SessionDescription α) (f : MediaDescription α → Option (MediaDescription α)) :
    Option (SessionDescription α) :=
  match d.mediaDescriptions.getLast? with
  | none => none
  | some m => (f m).map fun m => { d with mediaDescriptions := d.mediaDescriptions.dropLast ++ [m] }

end SessionDescription

/-! ## The machine -/

inductive Owner where
  | origin
  | session
  | media
deriving DecidableEq, Repr

/-- Which lines may come next: a session-level `c=` only after `o=`, a media-level one only after `m=`. -/
inductive Section where
  | origin
  | session
  | media
deriving DecidableEq, Repr

/-- The places of the machine, with the text from `start_p` on. -/
inductive Pc where
  | version (left : List UInt8)
  | versionDigits (text : List UInt8)
  | origin (left : List UInt8)
  | username (text : List UInt8)
  | sessId (text : List UInt8)
  | sessVersion (text : List UInt8)
  /-- the rest of `IN IP`, or of `c=IN IP` -/
  | nettype (owner : Owner) (left : List UInt8)
  | addrtype (owner : Owner)
  | addrtypeSpace (owner : Owner) (family : Family)
  | address (owner : Owner) (family : Family) (text : List UInt8)
  /-- an IPv4 address with the digits after its last slash, as long as they may be the TTL -/
  | addressTtl (owner : Owner) (text : List UInt8) (ttl : Option (List UInt8))
  | newline (sec : Section)
  | line (sec : Section)
  | mediaField
  | mediaType (text : List UInt8)
  | mediaPort (text : List UInt8)
  | mediaNbPorts (text : List UInt8)
  | mediaTransport (left : List UInt8)
  | mediaFmt (text : List UInt8)
deriving DecidableEq, Repr

/-- The machine with the tokens that `set_guid` needs and the result. -/
structure State (α : Type) where
  pc : Pc
  username : List UInt8 := []
  sessId : List UInt8 := []
  result : SessionDescription α := {}

def nonWs (c : UInt8) : Bool := '!'.toUInt8 ≤ c && c ≤ '~'.toUInt8

-- 0x60 is the grave accent
def tokenChar (c : UInt8) : Bool := isAlnum c || c == 0x60 ||
    (ascii ['!', '#', '$', '%', '&', '\'', '*', '+', '-', '.', '^', '_', '{', '|', '}', '~']).contains c

def space : UInt8 := ' '.toUInt8
def cr : UInt8 := '\r'.toUInt8
def lf : UInt8 := '\n'.toUInt8

namespace State

variable {α : Type}

def goTo (st : State α) (pc : Pc) : Except Unit (State α) := .ok { st with pc }

def reject : Except Unit (State α) := .error ()

def act (st : State α) (r : Option (SessionDescription α)) (pc : Pc) : Except Unit (State α) :=
  match r with
  | none => .error ()
  | some r => .ok { st with pc, result := r }

/-- A place that collects characters of one class until `stop`. -/
def collect (st : State α) (text : List UInt8) (c : UInt8) (cls : UInt8 → Bool) (self : List UInt8 → Pc)
    (stop : UInt8) (next : Except Unit (State α)) : Except Unit (State α) :=
  if cls c then st.goTo (self (text ++ [c])) else if c = stop ∧ text ≠ [] then next else reject

def literal (st : State α) (left : List UInt8) (c : UInt8) (self : List UInt8 → Pc) (next : Pc) :
    Except Unit (State α) :=
  match left with
  | [] => reject
  | [b] => if c = b then st.goTo next else reject
  | b :: left => if c = b then st.goTo (self left) else reject

end State

def mediaTypeOf (text : List UInt8) : Option MediaType :=
  if text = ascii ['a', 'u', 'd', 'i', 'o'] then some .audio
  else if text = ascii ['v', 'i', 'd', 'e', 'o'] then some .video
  else if text = ascii ['t', 'e', 'x', 't'] then some .text
  else if text = ascii ['a', 'p', 'p', 'l', 'i', 'c', 'a', 't', 'i', 'o', 'n'] then some .application
  else none

/-! The actions. -/

def setOrigin (st : State α) (family : Family) (text : List UInt8) : Option (SessionDescription α) :=
  (S.setHostPort family text).map fun a => { st.result with
    originUnicastAddress := some a
    guid := st.username ++ [space] ++ st.sessId ++ [space] ++ ascii ['I', 'N'] ++ [space] ++ text }

def setSessionConnectionData (d : SessionDescription α) (family : Family) (text : List UInt8) :
    Option (SessionDescription α) :=
  (S.setHostPort family text).map fun a => { d with sessionConnectionData := some a }

def addMediaConnectionData (d : SessionDescription α) (family : Family) (text : List UInt8) :
    Option (SessionDescription α) :=
  d.modifyLast fun m => m.addConnectionData S family text

def setAddress (st : State α) (owner : Owner) (family : Family) (text : List UInt8) : Option (SessionDescription α) :=
  match owner with
  | .origin => setOrigin S st family text
  | .session => setSessionConnectionData S st.result family text
  | .media => addMediaConnectionData S st.result family text

def setMediaPort (d : SessionDescription α) (text : List UInt8) : Option (SessionDescription α) :=
  (parseLong text).bind fun port => d.modifyLast fun m => m.setPort port

/-- `set_media_nb_ports`, which no transition of the grammar refers to. -/
def setMediaNbPorts (d : SessionDescription α) (text : List UInt8) : Option (SessionDescription α) :=
  (parseLong text).bind fun nbPorts => d.modifyLast fun m => m.setNbPorts nbPorts

def addMediaPayloadId (d : SessionDescription α) (text : List UInt8) : Option (SessionDescription α) :=
  (parseLong text).bind fun payloadId => d.modifyLast fun m => m.addPayloadId payloadId

def Owner.section : Owner → Section
  | .origin => .origin
  | .session => .session
  | .media => .media

def isLetter (c : UInt8) : Bool := Core.isLower c

def step (st : State α) (c : UInt8) : Except Unit (State α) :=
  match st.pc with
  | .version left => st.literal left c .version (.versionDigits [])
  | .versionDigits text => st.collect text c isDigit .versionDigits cr (st.goTo (.origin [lf, 'o'.toUInt8, '='.toUInt8]))
  | .origin left => st.literal left c .origin (.username [])
  | .username text => st.collect text c nonWs .username space (.ok { st with pc := .sessId [], username := text })
  | .sessId text => st.collect text c isDigit .sessId space (.ok { st with pc := .sessVersion [], sessId := text })
  | .sessVersion text =>
    st.collect text c isDigit .sessVersion space (st.goTo (.nettype .origin (ascii ['I', 'N', ' ', 'I', 'P'])))
  | .nettype owner left => st.literal left c (.nettype owner) (.addrtype owner)
  | .addrtype owner =>
    if c = '4'.toUInt8 then st.goTo (.addrtypeSpace owner .ipv4)
    else if c = '6'.toUInt8 then st.goTo (.addrtypeSpace owner .ipv6)
    else State.reject
  | .addrtypeSpace owner family =>
    if c = space then
      st.goTo (if owner ≠ .origin ∧ family = .ipv4 then .addressTtl owner [] none else .address owner family [])
    else State.reject
  | .address owner family text =>
    st.collect text c nonWs (.address owner family) cr
      (st.act (setAddress S st owner family text) (.newline owner.section))
  | .addressTtl owner text ttl =>
    -- a slash may end the address or be a part of it
    if c = '/'.toUInt8 then
      if text = [] then st.goTo (.addressTtl owner [c] none)
      else st.act (setAddress S st owner .ipv4 text) (.addressTtl owner (text ++ [c]) (some []))
    else if nonWs c then
      st.goTo (.addressTtl owner (text ++ [c]) (ttl.bind fun d => if isDigit c then some (d ++ [c]) else none))
    else if c = cr ∧ (ttl.any fun d => !d.isEmpty) then st.goTo (.newline owner.section)
    else State.reject
  | .newline sec => if c = lf then st.goTo (.line sec) else State.reject
  | .line sec =>
    if c = 'm'.toUInt8 then st.goTo .mediaField
    else if c = 'c'.toUInt8 ∧ sec = .origin then
      st.goTo (.nettype .session (ascii ['=', 'I', 'N', ' ', 'I', 'P']))
    else if c = 'c'.toUInt8 ∧ sec = .media then
      st.goTo (.nettype .media (ascii ['=', 'I', 'N', ' ', 'I', 'P']))
    else State.reject
  | .mediaField =>
    if c = '='.toUInt8 then st.goTo (.mediaType []) else State.reject
  | .mediaType text =>
    -- the first letter adds the media description
    if isLetter c then
      .ok { st with
        pc := .mediaType (text ++ [c])
        result := if text = [] then st.result.addMediaDescription else st.result }
    else if c = space then
      match mediaTypeOf text with
      | none => State.reject
      | some type => st.act (st.result.modifyLast fun m => some { m with type }) (.mediaPort [])
    else State.reject
  | .mediaPort text =>
    if isDigit c then st.goTo (.mediaPort (text ++ [c]))
    else if c = '/'.toUInt8 ∧ text ≠ [] then st.act (setMediaPort st.result text) (.mediaNbPorts [])
    else if c = space ∧ text ≠ [] then
      st.act (setMediaPort st.result text) (.mediaTransport (ascii ['R', 'T', 'P', '/', 'A', 'V', 'P']))
    else State.reject
  | .mediaNbPorts text =>
    -- the grammar has `set_media_port` here
    st.collect text c isDigit .mediaNbPorts space
      (st.act (setMediaPort st.result text) (.mediaTransport (ascii ['R', 'T', 'P', '/', 'A', 'V', 'P'])))
  | .mediaTransport [] =>
    if c = space then
      st.act (st.result.modifyLast fun m => some { m with transport := .rtpAvp }) (.mediaFmt [])
    else State.reject
  | .mediaTransport (b :: left) => if c = b then st.goTo (.mediaTransport left) else State.reject
  | .mediaFmt text =>
    if tokenChar c then st.goTo (.mediaFmt (text ++ [c]))
    else if c = space ∧ text ≠ [] then st.act (addMediaPayloadId st.result text) (.mediaFmt [])
    else if c = cr ∧ text ≠ [] then st.act (addMediaPayloadId st.result text) (.newline .media)
    else State.reject

def finish (r : Option (SessionDescription α)) : Except Unit (SessionDescription α) :=
  match r with
  | none => .error ()
  | some d => .ok d

def eof (st : State α) : Except Unit (SessionDescription α) :=
  match st.pc with
  | .address owner family text => if text = [] then .error () else finish (setAddress S st owner family text)
  | .addressTtl _ _ ttl => if ttl.any fun d => !d.isEmpty then .ok st.result else .error ()
  | .mediaFmt text => if text = [] then .error () else finish (addMediaPayloadId st.result text)
  | _ => .error ()

def machine : Machine UInt8 (State α) Unit (SessionDescription α) := ⟨step S, eof S⟩

/-- `parse_sdp`, which adds to `result`, and clears it where the text is rejected. -/
def parseSdp (str : List UInt8) (result : SessionDescription α) : Option (SessionDescription α) :=
  ((machine S).run { pc := .version (ascii ['v', '=']), result } str).toOption

end Roc.Sdp
