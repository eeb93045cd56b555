import RocToolkit.Address.Pct
import RocToolkit.Lib.Machine

/-!
# RocToolkit.Address.IoUri

I/O URIs: the machine of `io_uri_parse.rl`, its language, and `format_io_uri`. A file URI has several spellings,
and the formatter uses the shortest one; a path that begins with two slashes is then read as something else.
Allocations succeed.
-/

namespace Roc.Address

open List

open Roc.Core (ascii isAlnum)

open Option Machine

structure IoUri where
  scheme : List UInt8
  path : List UInt8
deriving DecidableEq, Repr

namespace IoUri

def file : List UInt8 := ascii ['f', 'i', 'l', 'e']

def isValid (u : IoUri) : Bool := !u.scheme.isEmpty && !u.path.isEmpty

def isFile (u : IoUri) : Bool := u.isValid && u.scheme == file

/-- `set_encoded_path`: the path that is set, if it can be. -/
def setEncodedPath (text : List UInt8) : Option (List UInt8) := if text.length < 1 then none else pctDecode text

def formatEncodedPath (u : IoUri) : Option (List UInt8) :=
  if u.path.isEmpty then none else pctEncode isSegmentChar u.path

/-! ## The parser -/

/-- `pchar` of the grammar. -/
def pchar (c : UInt8) : Bool := c != '?'.toUInt8 && c != '#'.toUInt8

/-- The places of the machine, with the text from `start_p` on and the scheme that was set. -/
inductive Pc where
  | start
  | scheme (text : List UInt8)
  | deviceColon (scheme : List UInt8)
  | deviceSlash (scheme : List UInt8)
  | deviceSlashes (scheme : List UInt8)
  | devicePath (scheme text : List UInt8)
  | fileColon
  /-- the first slash of an absolute path, or of the two before one -/
  | fileSlash
  | fileSlashes
  | localhost (left : List UInt8)
  | absSlash
  | absPath (text : List UInt8)
  /-- the special path, or the beginning of a relative one -/
  | dash
  | special
  | relPath (text : List UInt8)
deriving DecidableEq, Repr

def localhost : List UInt8 := ascii ['l', 'o', 'c', 'a', 'l', 'h', 'o', 's', 't']

def step : Pc → UInt8 → Except Unit Pc
  | .start, c => if isAlnum c then .ok (.scheme [c]) else .error ()
  | .scheme text, c =>
    if isAlnum c then .ok (.scheme (text ++ [c]))
    else if c = ':'.toUInt8 then .ok (if text = file then .fileColon else .deviceColon text)
    else .error ()
  | .deviceColon scheme, c => if c = '/'.toUInt8 then .ok (.deviceSlash scheme) else .error ()
  | .deviceSlash scheme, c => if c = '/'.toUInt8 then .ok (.deviceSlashes scheme) else .error ()
  | .deviceSlashes scheme, c => if pchar c then .ok (.devicePath scheme [c]) else .error ()
  | .devicePath scheme text, c => if pchar c then .ok (.devicePath scheme (text ++ [c])) else .error ()
  | .fileColon, c =>
    if c = '/'.toUInt8 then .ok .fileSlash
    else if c = '-'.toUInt8 then .ok .dash
    else .ok (.relPath [c])
  | .fileSlash, c =>
    if c = '/'.toUInt8 then .ok .fileSlashes
    else if pchar c then .ok (.absPath ['/'.toUInt8, c])
    else .error ()
  | .fileSlashes, c =>
    if c = '/'.toUInt8 then .ok .absSlash
    else if c = '-'.toUInt8 then .ok .special
    else if c = 'l'.toUInt8 then .ok (.localhost localhost.tail)
    else .error ()
  | .localhost [], c => if c = '/'.toUInt8 then .ok .absSlash else .error ()
  | .localhost (b :: left), c => if c = b then .ok (.localhost left) else .error ()
  | .absSlash, c =>
    if c ≠ '/'.toUInt8 ∧ pchar c then .ok (.absPath ['/'.toUInt8, c]) else .error ()
  | .absPath text, c => if pchar c then .ok (.absPath (text ++ [c])) else .error ()
  | .dash, c => if pchar c then .ok (.relPath ['-'.toUInt8, c]) else .error ()
  | .special, _ => .error ()
  | .relPath text, c => if pchar c then .ok (.relPath (text ++ [c])) else .error ()

/-- The URI with the path that `set_path` sets. -/
def finish (scheme text : List UInt8) : Except Unit IoUri :=
  match setEncodedPath text with
  | some path => .ok ⟨scheme, path⟩
  | none => .error ()

def eof : Pc → Except Unit IoUri
  | .devicePath scheme text => finish scheme text
  | .absPath text | .relPath text => finish file text
  | .dash | .special => finish file ['-'.toUInt8]
  | _ => .error ()

def machine : Machine UInt8 Pc Unit IoUri := ⟨step, eof⟩

def parseIoUri (str : List UInt8) : Option IoUri := (machine.run .start str).toOption

def formatIoUri (u : IoUri) : Option (List UInt8) :=
  if !u.isValid then none
  else u.formatEncodedPath.map (u.scheme ++ (if u.isFile then [':'.toUInt8] else ascii [':', '/', '/']) ++ ·)

/-! ## The language -/

def roots : List (List UInt8) :=
  [file ++ [':'.toUInt8], file ++ ascii [':', '/', '/'], file ++ ascii [':', '/', '/'] ++ localhost]

structure IsDevice (scheme : List UInt8) : Prop where
  ne_nil : scheme ≠ []
  alnum : ∀ c ∈ scheme, isAlnum c = true
  ne_file : scheme ≠ file

inductive Spelling : List UInt8 → List UInt8 → List UInt8 → Prop where
  | device {scheme text : List UInt8} : IsDevice scheme → text ≠ [] → (∀ c ∈ text, pchar c = true) →
      Spelling (scheme ++ ascii [':', '/', '/'] ++ text) scheme text
  | abs (root : List UInt8) {rest : List UInt8} {c : UInt8} : root ∈ roots → c ≠ '/'.toUInt8 →
      (∀ x ∈ c :: rest, pchar x = true) → Spelling (root ++ '/'.toUInt8 :: c :: rest) file ('/'.toUInt8 :: c :: rest)
  | special (root : List UInt8) : root ∈ [file ++ [':'.toUInt8], file ++ ascii [':', '/', '/']] →
      Spelling (root ++ ['-'.toUInt8]) file ['-'.toUInt8]
  | rel {c : UInt8} {rest : List UInt8} : c ≠ '/'.toUInt8 → (∀ x ∈ rest, pchar x = true) →
      c :: rest ≠ ['-'.toUInt8] → Spelling (file ++ [':'.toUInt8] ++ c :: rest) file (c :: rest)

def At : Pc → List UInt8 → Prop
  | .start, w => w = []
  | .scheme text, w => w = text ∧ text ≠ [] ∧ ∀ c ∈ text, isAlnum c = true
  | .deviceColon scheme, w => w = scheme ++ [':'.toUInt8] ∧ IsDevice scheme
  | .deviceSlash scheme, w => w = scheme ++ ascii [':', '/'] ∧ IsDevice scheme
  | .deviceSlashes scheme, w => w = scheme ++ ascii [':', '/', '/'] ∧ IsDevice scheme
  | .devicePath scheme text, w =>
    w = scheme ++ ascii [':', '/', '/'] ++ text ∧ IsDevice scheme ∧ text ≠ [] ∧ ∀ c ∈ text, pchar c = true
  | .fileColon, w => w = file ++ [':'.toUInt8]
  | .fileSlash, w => w = file ++ ascii [':', '/']
  | .fileSlashes, w => w = file ++ ascii [':', '/', '/']
  | .localhost left, w => ∃ got, got ++ left = localhost ∧ w = file ++ ascii [':', '/', '/'] ++ got
  | .absSlash, w => ∃ root ∈ roots, w = root ++ ['/'.toUInt8]
  | .absPath text, w => ∃ root ∈ roots, ∃ c rest, text = '/'.toUInt8 :: c :: rest ∧ c ≠ '/'.toUInt8 ∧
      (∀ x ∈ c :: rest, pchar x = true) ∧ w = root ++ text
  | .dash, w => w = file ++ ascii [':', '-']
  | .special, w => w = file ++ ascii [':', '/', '/', '-']
  | .relPath text, w => ∃ c rest, text = c :: rest ∧ c ≠ '/'.toUInt8 ∧ (∀ x ∈ rest, pchar x = true) ∧
      text ≠ ['-'.toUInt8] ∧ w = file ++ [':'.toUInt8] ++ text

variable {c : UInt8} {scheme text w t rest path e : List UInt8} {u : IoUri}

theorem forall_mem_concat {p : UInt8 → Prop} {l : List UInt8} (h : ∀ x ∈ l, p x) (hc : p c) : ∀ x ∈ l ++ [c], p x :=
  forall_mem_append.mpr ⟨h, forall_mem_singleton.mpr hc⟩

theorem of_guard {p : Prop} [Decidable p] {a b : Pc} (h : (if p then Except.ok a else .error ()) = .ok b) : p ∧ a = b := by
  split at h
  · next hp =>
    cases h
    exact ⟨hp, rfl⟩
  · cases h

theorem at_step (pc : Pc) (w : List UInt8) (c : UInt8) (pc' : Pc) (h : At pc w) (hs : step pc c = .ok pc') :
    At pc' (w ++ [c]) := by
  cases pc with
  | start =>
    obtain rfl : w = [] := h
    obtain ⟨hc, rfl⟩ := of_guard hs
    exact ⟨rfl, cons_ne_nil _ _, forall_mem_singleton.mpr hc⟩
  | scheme text =>
    obtain ⟨rfl, hne, halnum⟩ := h
    simp only [step] at hs
    split at hs
    · next hc =>
      cases hs
      exact ⟨rfl, by simp, forall_mem_concat halnum hc⟩
    · obtain ⟨rfl, rfl⟩ := of_guard hs
      split
      · next hfile =>
        subst hfile
        rfl
      · next hfile => exact ⟨rfl, hne, halnum, hfile⟩
  | deviceColon scheme | deviceSlash scheme =>
    obtain ⟨rfl, hdev⟩ := h
    obtain ⟨rfl, rfl⟩ := of_guard hs
    exact ⟨by rw [append_assoc]; rfl, hdev⟩
  | deviceSlashes scheme =>
    obtain ⟨rfl, hdev⟩ := h
    obtain ⟨hc, rfl⟩ := of_guard hs
    exact ⟨rfl, hdev, cons_ne_nil _ _, forall_mem_singleton.mpr hc⟩
  | devicePath scheme text =>
    obtain ⟨rfl, hdev, hne, htext⟩ := h
    obtain ⟨hc, rfl⟩ := of_guard hs
    exact ⟨append_assoc _ _ _, hdev, by simp, forall_mem_concat htext hc⟩
  | fileColon =>
    obtain rfl : w = _ := h
    simp only [step] at hs
    split at hs
    · next hc =>
      cases hs
      subst hc
      rfl
    · next hslash =>
      split at hs
      · next hc =>
        cases hs
        subst hc
        rfl
      · next hdash =>
        cases hs
        exact ⟨c, [], rfl, hslash, by simp, by simpa using hdash, rfl⟩
  | fileSlash =>
    obtain rfl : w = _ := h
    simp only [step] at hs
    split at hs
    · next hc =>
      cases hs
      subst hc
      rfl
    · next hslash =>
      obtain ⟨hc, rfl⟩ := of_guard hs
      exact ⟨file ++ [':'.toUInt8], by simp [roots], c, [], rfl, hslash, forall_mem_singleton.mpr hc, rfl⟩
  | fileSlashes =>
    obtain rfl : w = _ := h
    simp only [step] at hs
    split at hs
    · next hc =>
      cases hs
      subst hc
      exact ⟨file ++ ascii [':', '/', '/'], by simp [roots], rfl⟩
    · split at hs
      · next hc =>
        cases hs
        subst hc
        rfl
      · obtain ⟨rfl, rfl⟩ := of_guard hs
        exact ⟨['l'.toUInt8], rfl, rfl⟩
  | localhost left =>
    obtain ⟨got, hgot, rfl⟩ := h
    cases left with
    | nil =>
      rw [append_nil] at hgot
      subst hgot
      obtain ⟨rfl, rfl⟩ := of_guard hs
      exact ⟨file ++ ascii [':', '/', '/'] ++ localhost, by simp [roots], rfl⟩
    | cons b left =>
      obtain ⟨rfl, rfl⟩ := of_guard hs
      exact ⟨got ++ [c], by rw [append_assoc]; exact hgot, append_assoc _ _ _⟩
  | absSlash =>
    obtain ⟨root, hroot, rfl⟩ := h
    obtain ⟨hc, rfl⟩ := of_guard hs
    exact ⟨root, hroot, c, [], rfl, hc.1, forall_mem_singleton.mpr hc.2, append_assoc _ _ _⟩
  | absPath text =>
    obtain ⟨root, hroot, b, rest, rfl, hb, hrest, rfl⟩ := h
    obtain ⟨hc, rfl⟩ := of_guard hs
    exact ⟨root, hroot, b, rest ++ [c], rfl, hb, forall_mem_concat hrest hc, append_assoc _ _ _⟩
  | dash =>
    obtain rfl : w = _ := h
    obtain ⟨hc, rfl⟩ := of_guard hs
    exact ⟨'-'.toUInt8, [c], rfl, by decide, forall_mem_singleton.mpr hc, by simp, rfl⟩
  | special => cases hs
  | relPath text =>
    obtain ⟨b, rest, rfl, hb, hrest, hne, rfl⟩ := h
    obtain ⟨hc, rfl⟩ := of_guard hs
    exact ⟨b, rest ++ [c], rfl, hb, forall_mem_concat hrest hc, by simp, append_assoc _ _ _⟩

theorem finish_eq (htext : text ≠ []) :
    finish scheme text = .ok u ↔ ∃ path, u = ⟨scheme, path⟩ ∧ pctDecode text = some path := by
  have hlen : ¬ text.length < 1 := by
    rw [Nat.not_lt]
    exact length_pos_of_ne_nil htext
  unfold finish setEncodedPath
  rw [if_neg hlen]
  cases pctDecode text with
  | none => simp
  | some path => simp [eq_comm]

theorem at_eof (pc : Pc) (w : List UInt8) (u : IoUri) (h : At pc w) (he : eof pc = .ok u) :
    ∃ text, Spelling w u.scheme text ∧ pctDecode text = some u.path := by
  cases pc with
  | devicePath scheme text =>
    obtain ⟨rfl, hdev, hne, htext⟩ := h
    obtain ⟨path, rfl, hpath⟩ := (finish_eq hne).mp he
    exact ⟨text, .device hdev hne htext, hpath⟩
  | absPath text =>
    obtain ⟨root, hroot, c, rest, rfl, hc, hrest, rfl⟩ := h
    obtain ⟨path, rfl, hpath⟩ := (finish_eq (cons_ne_nil _ _)).mp he
    exact ⟨_, .abs root hroot hc hrest, hpath⟩
  | relPath text =>
    obtain ⟨c, rest, rfl, hc, hrest, hne, rfl⟩ := h
    obtain ⟨path, rfl, hpath⟩ := (finish_eq (cons_ne_nil _ _)).mp he
    exact ⟨_, .rel hc hrest hne, hpath⟩
  | dash =>
    obtain rfl : w = _ := h
    have he : finish file ['-'.toUInt8] = .ok u := he
    obtain ⟨path, rfl, hpath⟩ := (finish_eq (cons_ne_nil _ _)).mp he
    exact ⟨_, .special (file ++ [':'.toUInt8]) (by simp), hpath⟩
  | special =>
    obtain rfl : w = _ := h
    have he : finish file ['-'.toUInt8] = .ok u := he
    obtain ⟨path, rfl, hpath⟩ := (finish_eq (cons_ne_nil _ _)).mp he
    exact ⟨_, .special (file ++ ascii [':', '/', '/']) (by simp), hpath⟩
  | _ => cases he

/-! ## Every text of the language is accepted -/

theorem reads_alnum (h : ∀ c ∈ w, isAlnum c = true) : machine.Reads (.scheme text) w (.scheme (text ++ w)) :=
  Machine.Reads.token (m := machine) (f := Pc.scheme) (p := fun c => isAlnum c = true)
    (fun t c hc => by simp only [machine, step, hc, if_true]) text h

theorem reads_scheme (hne : scheme ≠ []) (h : ∀ c ∈ scheme, isAlnum c = true) :
    machine.Reads .start scheme (.scheme scheme) := by
  cases scheme with
  | nil => exact absurd rfl hne
  | cons c rest =>
    have hc : machine.step .start c = .ok (.scheme [c]) := by
      simp only [machine, step, h c mem_cons_self, if_true]
    exact .cons hc (reads_alnum (forall_mem_cons.mp h).2)

theorem reads_device (h : IsDevice scheme) :
    machine.Reads .start (scheme ++ ascii [':', '/', '/']) (.deviceSlashes scheme) := by
  refine (reads_scheme h.ne_nil h.alnum).append ?_
  have halnum : ¬ isAlnum ':'.toUInt8 = true := by decide
  have hcolon : machine.step (.scheme scheme) ':'.toUInt8 = .ok (.deviceColon scheme) := by
    simp only [machine, step, if_neg halnum, if_true, if_neg h.ne_file]
  exact .cons hcolon (.cons rfl (.single rfl))

theorem reads_fileColon : machine.Reads .start (file ++ [':'.toUInt8]) .fileColon :=
  .cons rfl (.cons rfl (.cons rfl (.cons rfl (.single rfl))))

theorem reads_fileSlashes : machine.Reads .start (file ++ ascii [':', '/', '/']) .fileSlashes :=
  .cons rfl (.cons rfl (.cons rfl (.cons rfl (.cons rfl (.cons rfl (.single rfl))))))

theorem reads_localhost : machine.Reads .start (file ++ ascii [':', '/', '/'] ++ localhost) (.localhost []) :=
  reads_fileSlashes.append
    (.cons rfl (.cons rfl (.cons rfl (.cons rfl (.cons rfl (.cons rfl (.cons rfl (.cons rfl (.single rfl)))))))))

section
variable (h : ∀ c ∈ w, pchar c = true)
include h

theorem reads_text {f : List UInt8 → Pc}
    (hf : ∀ t c, step (f t) c = if pchar c then .ok (f (t ++ [c])) else .error ()) :
    machine.Reads (f t) w (f (t ++ w)) :=
  Machine.Reads.token (m := machine) (f := f) (p := fun c => pchar c = true)
    (fun t c hc => (hf t c).trans (if_pos hc)) t h

theorem reads_relPath : machine.Reads (.relPath t) w (.relPath (t ++ w)) := reads_text h fun _ _ => rfl

end

theorem reads_abs {root : List UInt8} (hroot : root ∈ roots) (hc : c ≠ '/'.toUInt8)
    (hrest : ∀ x ∈ c :: rest, pchar x = true) :
    machine.Reads .start (root ++ '/'.toUInt8 :: c :: rest) (.absPath ('/'.toUInt8 :: c :: rest)) := by
  have hpchar : pchar c = true := hrest c mem_cons_self
  have htail := reads_text (t := ['/'.toUInt8, c]) (f := .absPath) (forall_mem_cons.mp hrest).2 fun _ _ => rfl
  have habs : machine.Reads .absSlash (c :: rest) (.absPath ('/'.toUInt8 :: c :: rest)) :=
    .cons (by simp only [machine, step, hpchar, hc, ne_eq, not_false_eq_true, and_self, if_true]) htail
  simp only [roots, mem_cons, not_mem_nil, or_false] at hroot
  obtain rfl | rfl | rfl := hroot
  · refine reads_fileColon.append (.cons rfl (.cons ?_ htail))
    simp only [machine, step, hpchar, if_neg hc, if_true]
  · exact reads_fileSlashes.append (.cons rfl habs)
  · exact reads_localhost.append (.cons rfl habs)

theorem Spelling.run_eq (h : Spelling w scheme text) : machine.run .start w = finish scheme text := by
  have hend : ∀ {pc : Pc}, machine.Reads .start w pc → machine.run .start w = eof pc := by
    intro pc hr
    have hrun := run_reads hr []
    rw [append_nil] at hrun
    exact hrun
  cases h with
  | @device scheme text hdev hne htext =>
    cases text with
    | nil => exact absurd rfl hne
    | cons c rest =>
      have hc : machine.step (.deviceSlashes scheme) c = .ok (.devicePath scheme [c]) := by
        simp only [machine, step, htext c mem_cons_self, if_true]
      exact hend ((reads_device hdev).append (.cons hc (reads_text (forall_mem_cons.mp htext).2 fun _ _ => rfl)))
  | abs root hroot hc hrest => exact hend (reads_abs hroot hc hrest)
  | special root hroot =>
    simp only [mem_cons, not_mem_nil, or_false] at hroot
    obtain rfl | rfl := hroot
    · exact hend (reads_fileColon.append (.single rfl))
    · exact hend (reads_fileSlashes.append (.single rfl))
  | @rel c rest hc hrest hne =>
    by_cases hdash : c = '-'.toUInt8
    · subst hdash
      cases rest with
      | nil => exact absurd rfl hne
      | cons b rest =>
        have hb : machine.step .dash b = .ok (.relPath ['-'.toUInt8, b]) := by
          simp only [machine, step, hrest b mem_cons_self, if_true]
        exact hend (reads_fileColon.append (.cons rfl (.cons hb (reads_relPath (forall_mem_cons.mp hrest).2))))
    · have hstep : machine.step .fileColon c = .ok (.relPath [c]) := by
        simp only [machine, step, if_neg hc, if_neg hdash]
      exact hend (reads_fileColon.append (.cons hstep (reads_relPath hrest)))

theorem Spelling.text_ne_nil (h : Spelling w scheme text) : text ≠ [] := by
  cases h with
  | device _ hne _ => exact hne
  | _ => exact cons_ne_nil _ _

theorem parseIoUri_eq_some :
    parseIoUri w = some u ↔ ∃ text, Spelling w u.scheme text ∧ pctDecode text = some u.path := by
  have hrun : parseIoUri w = some u ↔ machine.run .start w = .ok u := by
    unfold parseIoUri
    cases machine.run .start w <;> simp [Except.toOption]
  rw [hrun]
  constructor
  · intro h
    have hstart : At .start [] := rfl
    exact run_induct (m := machine) at_step at_eof hstart h
  · rintro ⟨text, hsp, hdec⟩
    rw [hsp.run_eq, finish_eq hsp.text_ne_nil]
    exact ⟨u.path, rfl, hdec⟩

/-! ## The round trip -/

def RoundTrips (u : IoUri) : Prop := ∃ t, formatIoUri u = some t ∧ parseIoUri t = some u

theorem formatIoUri_eq (hscheme : u.scheme ≠ []) (hpath : u.path ≠ []) (ht : pctEncode isSegmentChar u.path = some t) :
    formatIoUri u = some (u.scheme ++ (if u.scheme = file then [':'.toUInt8] else ascii [':', '/', '/']) ++ t) := by
  have hs : u.scheme.isEmpty = false := by simpa using hscheme
  have hp : u.path.isEmpty = false := by simpa using hpath
  simp [formatIoUri, formatEncodedPath, isFile, isValid, hs, hp, ht]

section
variable {path t : List UInt8} (ht : pctEncode isSegmentChar path = some t)
include ht

theorem pchar_of_pctEncode : ∀ c ∈ t, pchar c = true := by
  intro c hc
  have hne := pctEncode_pchars ht c hc
  simp [pchar, hne.1, hne.2]

theorem pctDecode_of_pctEncode : pctDecode t = some path :=
  pctDecode_pctEncode (fun _ hc => (isSegmentChar_ne hc).2.1) ht

end

theorem RoundTrips.of_spelling (hscheme : u.scheme ≠ []) (hpath : u.path ≠ [])
    (ht : pctEncode isSegmentChar u.path = some t)
    (hsp : Spelling (u.scheme ++ (if u.scheme = file then [':'.toUInt8] else ascii [':', '/', '/']) ++ t)
      u.scheme t) : RoundTrips u :=
  ⟨_, formatIoUri_eq hscheme hpath ht, parseIoUri_eq_some.mpr ⟨t, hsp, pctDecode_of_pctEncode ht⟩⟩

theorem pctEncode_cons (h : pctEncode isSegmentChar (c :: path) = some t) :
    ∃ t', pctEncode isSegmentChar path = some t' ∧
      ((isSegmentChar c = true ∧ t = c :: t') ∨ (isSegmentChar c = false ∧ t = escape c ++ t')) := by
  unfold pctEncode at h
  split at h
  · cases h
  · obtain ⟨t', ht', rfl⟩ := map_eq_some_iff.mp h
    refine ⟨t', ht', ?_⟩
    cases hc : isSegmentChar c with
    | true => exact .inl ⟨rfl, rfl⟩
    | false => exact .inr ⟨rfl, rfl⟩

theorem head_pctEncode {b : UInt8} (hc : c ≠ '/'.toUInt8)
    (h : pctEncode isSegmentChar (c :: path) = some (b :: t)) : b ≠ '/'.toUInt8 := by
  obtain ⟨t', -, ⟨-, heq⟩ | ⟨-, heq⟩⟩ := pctEncode_cons h
  · cases heq
    exact hc
  · cases heq
    decide

def Rooted (path : List UInt8) : Prop := path = ['/'.toUInt8] ∨ ascii ['/', '/'] <+: path

theorem roundTrips_device (hdev : IsDevice u.scheme) (hpath : u.path ≠ [])
    (hz : ∀ c ∈ u.path, c ≠ 0) : RoundTrips u := by
  obtain ⟨t, ht⟩ := pctEncode_total isSegmentChar hz
  have hne : t ≠ [] := by
    rintro rfl
    exact hpath (some.inj (pctDecode_of_pctEncode ht)).symm
  refine .of_spelling hdev.ne_nil hpath ht ?_
  rw [if_neg hdev.ne_file]
  exact .device hdev hne (pchar_of_pctEncode ht)

theorem roundTrips_file (hpath : path ≠ []) (hz : ∀ c ∈ path, c ≠ 0) (hroot : ¬ Rooted path) :
    RoundTrips ⟨file, path⟩ := by
  obtain ⟨t, ht⟩ := pctEncode_total isSegmentChar hz
  have hpchar := pchar_of_pctEncode ht
  refine .of_spelling (cons_ne_nil _ _) hpath ht ?_
  rw [if_pos rfl]
  cases path with
  | nil => exact absurd rfl hpath
  | cons c path =>
    by_cases hc : c = '/'.toUInt8
    · -- an absolute path, and not two slashes
      subst hc
      obtain ⟨t', ht', ⟨-, rfl⟩ | ⟨hseg, -⟩⟩ := pctEncode_cons ht
      · cases path with
        | nil => exact absurd (.inl rfl) hroot
        | cons b path =>
          have hb : b ≠ '/'.toUInt8 := by
            rintro rfl
            exact hroot (.inr ⟨path, rfl⟩)
          cases t' with
          | nil =>
            have := pctDecode_of_pctEncode ht'
            cases this
          | cons x t' =>
            exact .abs (file ++ [':'.toUInt8]) (by simp [roots]) (head_pctEncode hb ht') (forall_mem_cons.mp hpchar).2
      · exact absurd hseg (by decide)
    · cases t with
      | nil =>
        have := pctDecode_of_pctEncode ht
        cases this
      | cons x t =>
        have hx := head_pctEncode hc ht
        by_cases hdash : x :: t = ['-'.toUInt8]
        · rw [hdash]
          exact .special (file ++ [':'.toUInt8]) (by simp)
        · exact .rel hx (forall_mem_cons.mp hpchar).2 hdash

theorem pctDecode_append (hw : ∀ c ∈ w, isSegmentChar c = true)
    (h : pctDecode (w ++ rest) = some path) : ∃ path', pctDecode rest = some path' ∧ path = w ++ path' := by
  induction w generalizing path with
  | nil => exact ⟨path, h, rfl⟩
  | cons c w ih =>
    have hc := hw c mem_cons_self
    obtain ⟨-, p, hp, rfl⟩ := pctDecode_plain (isSegmentChar_ne hc).2.1 h
    obtain ⟨path', hrest, rfl⟩ := ih (forall_mem_cons.mp hw).2 hp
    exact ⟨path', hrest, rfl⟩

theorem not_spelling (ht : pctEncode isSegmentChar rest = some t)
    (hdec : pctDecode text = some (ascii ['/', '/'] ++ rest)) :
    ¬ Spelling (file ++ ascii [':', '/', '/'] ++ t) file text := by
  have hback : pctDecode t = some rest := pctDecode_of_pctEncode ht
  intro hsp
  generalize hw : file ++ ascii [':', '/', '/'] ++ t = w at hsp
  generalize hfile : file = scheme at hsp
  cases hsp with
  | device hdev => exact hdev.ne_file hfile.symm
  | @abs root rest' c hroot hc _ =>
    simp only [roots, mem_cons, not_mem_nil, or_false] at hroot
    obtain rfl | rfl | rfl := hroot
    · cases hw
      exact hc rfl
    · obtain rfl : t = _ := append_cancel_left hw
      rw [hback] at hdec
      have hlen := congrArg List.length (some.inj hdec)
      simp only [length_append, ascii, length_map, length_cons] at hlen
      omega
    · rw [append_assoc _ localhost] at hw
      obtain rfl : t = _ := append_cancel_left hw
      obtain ⟨path, hpath, rfl⟩ := pctDecode_append (all_eq_true.mp rfl) hback
      rw [hpath] at hdec
      have hlen := congrArg List.length (some.inj hdec)
      simp only [length_append, ascii, length_map, length_cons] at hlen
      omega
  | special root hroot => cases hdec
  | rel hc =>
    cases hw
    exact hc rfl

theorem not_roundTrips (hroot : Rooted path) : ¬ RoundTrips ⟨file, path⟩ := by
  rintro ⟨w, hformat, hparse⟩
  obtain ⟨text, hsp, hdec⟩ := parseIoUri_eq_some.mp hparse
  obtain ⟨t, ht⟩ := pctEncode_total isSegmentChar (ne_zero_of_pctDecode hdec)
  have hpath : path ≠ [] := by
    rintro rfl
    obtain h | ⟨_, h⟩ := hroot <;> cases h
  rw [formatIoUri_eq (cons_ne_nil _ _) hpath ht, if_pos rfl] at hformat
  obtain rfl := some.inj hformat
  rcases hroot with rfl | ⟨rest, rfl⟩
  · -- a lone slash is not a path
    cases ht
    cases hparse
  · obtain ⟨t1, ht1, ⟨-, rfl⟩ | ⟨hseg, -⟩⟩ := pctEncode_cons ht
    · obtain ⟨t2, ht2, ⟨-, rfl⟩ | ⟨hseg, -⟩⟩ := pctEncode_cons ht1
      · exact not_spelling ht2 hdec hsp
      · exact absurd hseg (by decide)
    · exact absurd hseg (by decide)

/-! ## Which paths begin with two slashes -/

def escapedSlash : List (List UInt8) := [ascii ['%', '2', 'F'], ascii ['%', '2', 'f']]

/-- The text of the path of a file URI begins with two slashes, not both written as such, or is one escaped
slash. -/
inductive DoubleSlash : List UInt8 → Prop where
  | abs {root e rest : List UInt8} : root ∈ roots → e ∈ escapedSlash → DoubleSlash (root ++ '/'.toUInt8 :: (e ++ rest))
  | rel {e e' rest : List UInt8} : e ∈ escapedSlash → e' ∈ ['/'.toUInt8] :: escapedSlash →
      DoubleSlash (file ++ [':'.toUInt8] ++ (e ++ (e' ++ rest)))
  | root {e : List UInt8} : e ∈ escapedSlash → DoubleSlash (file ++ [':'.toUInt8] ++ e)

theorem pctDecode_escapedSlash (he : e ∈ escapedSlash) (rest : List UInt8) :
    pctDecode (e ++ rest) = (pctDecode rest).map ('/'.toUInt8 :: ·) := by
  simp only [escapedSlash, mem_cons, not_mem_nil, or_false] at he
  obtain rfl | rfl := he
  · exact pctDecode_escape (c := '/'.toUInt8) (by decide) rest
  · rfl

theorem pctDecode_slash (h : pctDecode text = some ('/'.toUInt8 :: path)) :
    ∃ e ∈ ['/'.toUInt8] :: escapedSlash, ∃ rest, text = e ++ rest ∧ pctDecode rest = some path := by
  cases text with
  | nil => cases h
  | cons c rest =>
    by_cases hc : c = '%'.toUInt8
    · subst hc
      obtain ⟨hi, lo, rest', path', rfl, hhi, hlo, -, hpath, heq⟩ := pctDecode_percent h
      obtain ⟨hslash, rfl⟩ := List.cons.inj heq
      obtain ⟨rfl, rfl | rfl⟩ := fromHex_eq_slash hhi hlo hslash.symm
      · exact ⟨ascii ['%', '2', 'F'], by simp [escapedSlash], rest', rfl, hpath⟩
      · exact ⟨ascii ['%', '2', 'f'], by simp [escapedSlash], rest', rfl, hpath⟩
    · obtain ⟨-, path', hpath, heq⟩ := pctDecode_plain hc h
      obtain ⟨rfl, rfl⟩ := List.cons.inj heq
      exact ⟨['/'.toUInt8], by simp, rest, rfl, hpath⟩

theorem run_path {f : List UInt8 → Pc} (hstep : ∀ t c, step (f t) c = if pchar c then .ok (f (t ++ [c])) else .error ())
    (heof : ∀ t, eof (f t) = finish file t) (hne : text ≠ [])
    (h : machine.run (f text) rest = .ok u) : u.scheme = file ∧ pctDecode (text ++ rest) = some u.path := by
  induction rest generalizing text with
  | nil =>
    have h : finish file text = .ok u := (heof text).symm.trans h
    obtain ⟨path, rfl, hpath⟩ := (finish_eq hne).mp h
    rw [append_nil]
    exact ⟨rfl, hpath⟩
  | cons c rest ih =>
    cases hc : pchar c with
    | false =>
      have herr : machine.step (f text) c = .error () := (hstep text c).trans (by rw [hc]; rfl)
      rw [run_cons_error herr] at h
      cases h
    | true =>
      have hok : machine.step (f text) c = .ok (f (text ++ [c])) := (hstep text c).trans (by rw [hc]; rfl)
      rw [run_cons hok] at h
      have hrest := ih (by simp) h
      rwa [append_assoc, singleton_append] at hrest

theorem reads_escapedSlash (he : e ∈ escapedSlash) :
    machine.Reads .start (file ++ [':'.toUInt8] ++ e) (.relPath e) := by
  simp only [escapedSlash, mem_cons, not_mem_nil, or_false] at he
  obtain rfl | rfl := he
  · exact reads_fileColon.append (.cons rfl (.cons rfl (.single rfl)))
  · exact reads_fileColon.append (.cons rfl (.cons rfl (.single rfl)))

theorem pctDecode_slashes {e' : List UInt8} (he : e ∈ ['/'.toUInt8] :: escapedSlash)
    (he' : e' ∈ ['/'.toUInt8] :: escapedSlash) (h : pctDecode (e ++ (e' ++ rest)) = some path) : Rooted path := by
  have hone : ∀ {e : List UInt8}, e ∈ ['/'.toUInt8] :: escapedSlash → ∀ rest,
      pctDecode (e ++ rest) = (pctDecode rest).map ('/'.toUInt8 :: ·) := by
    intro e he rest
    rcases mem_cons.mp he with rfl | he
    · exact pctDecode_cons (by decide) (by decide) rest
    · exact pctDecode_escapedSlash he rest
  rw [hone he, hone he'] at h
  obtain ⟨_, htail, rfl⟩ := map_eq_some_iff.mp h
  obtain ⟨path, -, rfl⟩ := map_eq_some_iff.mp htail
  exact .inr ⟨path, rfl⟩

theorem rooted_of_doubleSlash (hw : DoubleSlash w) (h : parseIoUri w = some u) : u.scheme = file ∧ Rooted u.path := by
  have h : machine.run .start w = .ok u := by
    unfold parseIoUri at h
    cases hr : machine.run .start w with
    | error _ => rw [hr] at h; cases h
    | ok v => rw [hr] at h; cases h; rfl
  cases hw with
  | @abs root e rest hroot he =>
    have hread : machine.Reads .start (root ++ '/'.toUInt8 :: e) (.absPath ('/'.toUInt8 :: e)) := by
      simp only [escapedSlash, mem_cons, not_mem_nil, or_false] at he
      obtain rfl | rfl := he <;> exact reads_abs hroot (by decide) (all_eq_true.mp rfl)
    rw [← cons_append, ← append_assoc, run_reads hread] at h
    obtain ⟨hscheme, hdec⟩ := run_path (f := .absPath) (fun _ _ => rfl) (fun _ => rfl) (cons_ne_nil _ _) h
    exact ⟨hscheme, pctDecode_slashes (e := ['/'.toUInt8]) mem_cons_self (mem_cons_of_mem _ he) hdec⟩
  | @rel e e' rest he he' =>
    rw [← append_assoc, run_reads (reads_escapedSlash he)] at h
    have hne : e ≠ [] := by
      rintro rfl
      simp [escapedSlash, ascii] at he
    obtain ⟨hscheme, hdec⟩ := run_path (f := .relPath) (fun _ _ => rfl) (fun _ => rfl) hne h
    exact ⟨hscheme, pctDecode_slashes (mem_cons_of_mem _ he) he' hdec⟩
  | @root e he =>
    simp only [escapedSlash, mem_cons, not_mem_nil, or_false] at he
    obtain rfl | rfl := he
    · cases h
      exact ⟨rfl, .inl rfl⟩
    · cases h
      exact ⟨rfl, .inl rfl⟩

theorem doubleSlash_of_rooted (h : parseIoUri w = some u) (hfile : u.scheme = file)
    (hroot : Rooted u.path) : DoubleSlash w := by
  obtain ⟨text, hsp, hdec⟩ := parseIoUri_eq_some.mp h
  obtain ⟨scheme, path⟩ := u
  -- the path is a slash and the rest of it
  have hslash : ∃ rest, path = '/'.toUInt8 :: rest ∧ (rest = [] ∨ ∃ rest', rest = '/'.toUInt8 :: rest') := by
    obtain rfl | ⟨rest', rfl⟩ := hroot
    · exact ⟨[], rfl, .inl rfl⟩
    · exact ⟨_, rfl, .inr ⟨rest', rfl⟩⟩
  obtain ⟨rest, rfl, hrest⟩ := hslash
  obtain ⟨e, he, text', rfl, hdec'⟩ := pctDecode_slash hdec
  generalize htext : e ++ text' = text at hsp
  cases hsp with
  | device hdev => exact absurd hfile hdev.ne_file
  | @abs root rest' c hroot' hc _ =>
    rcases mem_cons.mp he with rfl | he
    · obtain ⟨-, rfl⟩ := List.cons.inj htext
      rcases hrest with rfl | ⟨rest'', rfl⟩
      · exact absurd rfl (pctDecode_ne_nil (cons_ne_nil _ _) hdec')
      · obtain ⟨e', he', text'', htext', -⟩ := pctDecode_slash hdec'
        rcases mem_cons.mp he' with rfl | he'
        · exact absurd (List.cons.inj htext').1 hc
        · rw [htext']
          exact .abs hroot' he'
    · simp only [escapedSlash, mem_cons, not_mem_nil, or_false] at he
      obtain rfl | rfl := he <;> cases htext
  | special _ _ =>
    simp only [escapedSlash, mem_cons, not_mem_nil, or_false] at he
    obtain rfl | rfl | rfl := he <;> cases htext
  | @rel c rest' hc _ _ =>
    rcases mem_cons.mp he with rfl | he
    · exact absurd (List.cons.inj htext).1.symm hc
    · rw [← htext]
      rcases hrest with rfl | ⟨rest'', rfl⟩
      · obtain rfl : text' = [] := by
          by_contra hne
          exact pctDecode_ne_nil hne hdec' rfl
        rw [append_nil]
        exact .root he
      · obtain ⟨e', he', text'', rfl, -⟩ := pctDecode_slash hdec'
        exact .rel he he'

/-- An accepted URI is formatted and read again as the same URI, unless its path is written with two slashes in
front. -/
theorem roundTrips_iff {w : List UInt8} {u : IoUri} (h : parseIoUri w = some u) :
    RoundTrips u ↔ ¬ DoubleSlash w := by
  obtain ⟨text, hsp, hdec⟩ := parseIoUri_eq_some.mp h
  have hpath : u.path ≠ [] := pctDecode_ne_nil hsp.text_ne_nil hdec
  have hz := ne_zero_of_pctDecode hdec
  obtain ⟨scheme, path⟩ := u
  constructor
  · intro hround hdouble
    obtain ⟨rfl, hroot⟩ := rooted_of_doubleSlash hdouble h
    exact not_roundTrips hroot hround
  · intro hdouble
    by_cases hfile : scheme = file
    · subst hfile
      exact roundTrips_file hpath hz fun hroot => hdouble (doubleSlash_of_rooted h rfl hroot)
    · have hdev : IsDevice scheme := by
        cases hsp with
        | device hdev => exact hdev
        | _ => exact absurd rfl hfile
      exact roundTrips_device hdev hpath hz

/-- `file:///a%3Fb`, which is formatted as `file:/a%3Fb`. -/
theorem roundTrips_escapedQuestion :
    parseIoUri (file ++ ascii [':', '/', '/', '/', 'a', '%', '3', 'F', 'b']) =
        some ⟨file, ascii ['/', 'a', '?', 'b']⟩ ∧
      RoundTrips ⟨file, ascii ['/', 'a', '?', 'b']⟩ := by
  have hparse : parseIoUri (file ++ ascii [':', '/', '/', '/', 'a', '%', '3', 'F', 'b']) =
      some ⟨file, ascii ['/', 'a', '?', 'b']⟩ := rfl
  refine ⟨hparse, (roundTrips_iff hparse).mpr fun h => ?_⟩
  obtain ⟨-, h | ⟨_, h⟩⟩ := rooted_of_doubleSlash h hparse <;> cases h

/-- `file:/%2Fa` is accepted with the path `//a` and formatted as `file://a`, which is rejected. -/
theorem escapedSlash_rejected : ∃ u t, parseIoUri (file ++ ascii [':', '/', '%', '2', 'F', 'a']) = some u ∧
    formatIoUri u = some t ∧ t = file ++ ascii [':', '/', '/', 'a'] ∧ parseIoUri t = none :=
  ⟨⟨file, ascii ['/', '/', 'a']⟩, _, rfl, rfl, rfl, rfl⟩

end IoUri
end Roc.Address
