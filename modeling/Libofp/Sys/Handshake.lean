/- GID: Libofp/Sys/Handshake
   digest: The handshake of a connection, and two endpoints that send and receive in any order. -/

import Libofp.Base.Digits
import Libofp.Messages.Header
import Libofp.Wire.PaddedElements
import Libofp.Wire.ValidatedIteration

set_option autoImplicit false

namespace Libofp.Sys.Handshake

open Octets.ByteRange Octets.BigEndian Messages Messages.Header Wire.ValidatedIteration
open Wire.PaddedElements Wire.ProtocolRange
open Base.Digits Base.Run

/-- `ProtocolVersions`: bit `v` of the bitmap stands for version `v`. -/
abbrev ProtocolVersions := Nat

def highestLoop (bitmap : ProtocolVersions) : Nat → Nat
  | 0 => 0
  | i + 1 => if bitmap.testBit (i + 1) then i + 1 else highestLoop bitmap i

def highestVersion (bitmap : ProtocolVersions) : Nat := highestLoop bitmap 30

def negotiateVersion (bitmap : ProtocolVersions) (msgVersion : Nat)
    (msgVersions : ProtocolVersions) : Nat :=
  if 4 ≤ msgVersion ∧ msgVersions ≠ 0 then highestVersion (bitmap &&& msgVersions)
  else if highestVersion bitmap ≤ msgVersion then highestVersion bitmap
  else if bitmap.testBit msgVersion then msgVersion
  else 0

def includeInHelloMsg (bitmap : ProtocolVersions) (version : Nat) : Bool :=
  decide (4 ≤ version ∧ bitmap ≠ 2 ^ version ∧ bitmap ≠ 2 ^ (version + 1) - 2)

def versions (bitmap : ProtocolVersions) : List Nat :=
  (List.range' 1 30).filter bitmap.testBit

def toString (bitmap : ProtocolVersions) : Bytes :=
  literal "[" ++ (literal ", ").intercalate ((versions bitmap).map (printNat 10)) ++ literal "]"

/-- A message as it is read: its header, and as many bytes as the length in the header says. -/
structure Message where
  version : Nat
  type : Nat
  xid : Nat
  body : Bytes
  deriving DecidableEq, Repr

/-- `HelloElement` with `OFPHET_VERSIONBITMAP`. -/
def helloElement (bitmap : ProtocolVersions) : Bytes :=
  bigBytes 2 1 ++ (bigBytes 2 8 ++ bigBytes 4 bitmap)

/-- `HelloBuilder::send`, from the version in the header of the builder and its bitmap. -/
def sendHello (version : Nat) (bitmap : ProtocolVersions) (xid : Nat) : Message :=
  let hello (version : Nat) (bitmap : ProtocolVersions) : Message :=
    ⟨version, 0, xid, if includeInHelloMsg bitmap version then helloElement bitmap else []⟩
  if version = 0 then if bitmap = 0 then hello 6 0x7e else hello (highestVersion bitmap) bitmap
  else if 4 ≤ version ∧ bitmap = 0 then hello version (if version ≤ 30 then 2 ^ version else 0)
  else hello version bitmap

def versionBitMap (elem : Bytes) : ProtocolVersions :=
  if 8 ≤ big16 elem 2 then big32 elem 4 else 0

/-- `Hello::protocolVersions`. A body that is no range of elements counts as empty. -/
def protocolVersions (msg : Message) : ProtocolVersions :=
  let elems := if ElemType.helloElement.layout.isProtocolRangeValid 8 msg.body then
    ElemType.helloElement.layout.items msg.body else []
  match elems.find? fun elem => big16 elem 0 == 1 with
  | some elem => versionBitMap elem
  | none => 0

/-- `Header::validateInput`. The length covers the header. -/
def validateInput (msg : Message) (negotiatedVersion : Nat) : Bool :=
  decide (msg.version ≠ 0 ∧ msg.version ≤ 9 ∧
    (negotiatedVersion = 0 ∨ msg.version = negotiatedVersion) ∧ msg.type ≤ 64)

inductive HandshakeState
  | handshakeInit | sentHello | sentFeaturesRequest | sentPortRequest
  deriving DecidableEq, Repr

open HandshakeState

/-- A connection with its `DefaultHandshake`. -/
structure Endpoint where
  versions : ProtocolVersions
  wantFeatures : Bool
  state : HandshakeState
  version : Nat
  -- The handshake is the listener of the channel; the listener of the program was installed.
  listening : Bool
  installed : Bool
  -- `postDatapath` has returned true.
  registered : Bool
  -- `shutdown` was called.
  shut : Bool
  -- The header of a message was not accepted, and nothing more is read.
  down : Bool
  deriving DecidableEq, Repr

def Endpoint.start (versions : ProtocolVersions) (wantFeatures : Bool) : Endpoint :=
  ⟨versions, wantFeatures, handshakeInit, 0, true, false, false, false, false⟩

/-- What the handshake cannot know by itself: whether a reply is valid, whether its datapath can
be registered, and whether the connection has become an auxiliary one. -/
structure Answer where
  valid : Bool
  registered : Bool
  auxiliary : Bool

namespace Endpoint

variable (e : Endpoint)

/-- The message that `replyError` sends when there is no version in common. -/
def incompatible (msg : Message) : Message :=
  ⟨e.version, 1, msg.xid, bigBytes 4 0 ++ literal "Incompatible OpenFlow version: " ++
    printNat 10 msg.version ++ literal " " ++ toString (protocolVersions msg) ++
    literal " Supported versions: " ++ toString e.versions⟩

variable (xid : Nat)

def onHello (msg : Message) : Endpoint × List Message :=
  if e.state = sentFeaturesRequest ∨ e.state = sentPortRequest then (e, [])
  else if msg.body.length % 8 ≠ 0 then (e, [])
  else
    let version := negotiateVersion e.versions msg.version (protocolVersions msg)
    if version = 0 then
      let e := { e with version := highestVersion e.versions, shut := true }
      (e, if e.wantFeatures then [] else [e.incompatible msg])
    else if e.wantFeatures then
      ({ e with version := version, state := sentFeaturesRequest }, [⟨version, 5, xid, []⟩])
    else ({ e with version := version, listening := false, installed := true }, [])

def onFeaturesReply (answer : Answer) : Endpoint × List Message :=
  if e.state ≠ sentFeaturesRequest ∨ answer.valid = false then (e, [])
  else if answer.registered then
    let e := { e with registered := true }
    if answer.auxiliary then ({ e with listening := false }, [])
    else if 1 < e.version then
      ({ e with state := sentPortRequest },
        [⟨e.version, OFPT.multipartRequest, xid, bigBytes 2 13 ++ bigBytes 6 0⟩])
    else ({ e with listening := false, installed := true }, [])
  else ({ e with shut := true }, [])

def onPortDescReply (answer : Answer) : Endpoint × List Message :=
  if e.state ≠ sentPortRequest ∨ answer.valid = false then (e, [])
  else ({ e with listening := false, installed := true }, [])

def onMessage (msg : Message) (answer : Answer) : Endpoint × List Message :=
  let type := translateType msg.version msg.type 4
  if e.listening = false then (e, [])
  else if type = 0 then e.onHello xid msg
  else if type = OFPT.featuresReply then e.onFeaturesReply xid answer
  else if type = OFPT.multipartReply ∧ big16 msg.body 0 = 13 then e.onPortDescReply answer
  else (e, [])

/-- The callback of `asyncReadHeader`, with the rest of the message read. -/
def receive (msg : Message) (answer : Answer) : Endpoint × List Message :=
  if validateInput msg e.version then e.onMessage xid msg answer
  else ({ e with down := true }, [])

end Endpoint

/-- The two endpoints of a connection, each with the messages that are on their way to it. -/
abbrev System := Bool → Endpoint × List Message

inductive Event
  | up (p : Bool) (xid : Nat)
  | receive (p : Bool) (xid : Nat) (answer : Answer)
  | send (p : Bool) (type xid : Nat) (body : Bytes)

/-- An endpoint changes and sends messages to the other one. -/
def System.put (s : System) (p : Bool) (e : Endpoint) (inbox out : List Message) : System :=
  fun q => if q = p then (e, inbox) else ((s q).1, (s q).2 ++ out)

/-- Messages are read once the channel is up. Behind the negotiation any message may be sent, with
the version of the channel in its header: by the program, or to keep the connection alive. -/
def System.step (s : System) : Event → System
  | .up p xid =>
    let e := (s p).1
    if e.state = handshakeInit then
      s.put p { e with state := sentHello } (s p).2
        [sendHello (highestVersion e.versions) e.versions xid]
    else s
  | .receive p xid answer =>
    match (s p).2 with
    | [] => s
    | msg :: inbox =>
      let e := (s p).1
      if e.state = handshakeInit ∨ e.down then s
      else s.put p (e.receive xid msg answer).1 inbox (e.receive xid msg answer).2
  | .send p type xid body =>
    let e := (s p).1
    if e.version ≠ 0 ∧ type ≤ 64 then
      s.put p e (s p).2 [⟨e.version, type, xid, body⟩]
    else s

def System.start (mine theirs : Endpoint) : System := fun p => (bif p then mine else theirs, [])

theorem highestLoop_spec (bitmap : ProtocolVersions) (n : Nat) :
    highestLoop bitmap n ≤ n ∧
      (highestLoop bitmap n ≠ 0 → bitmap.testBit (highestLoop bitmap n) = true) ∧
      ∀ i, 1 ≤ i → i ≤ n → bitmap.testBit i = true → i ≤ highestLoop bitmap n := by
  induction n with
  | zero => grind [highestLoop]
  | succ n ih => grind [highestLoop]

/-- Some versions, and only those that a header may have. -/
def Announceable (bitmap : ProtocolVersions) : Prop :=
  bitmap ≠ 0 ∧ bitmap % 2 = 0 ∧ bitmap < 2 ^ 10

instance (bitmap : ProtocolVersions) : Decidable (Announceable bitmap) :=
  inferInstanceAs (Decidable (_ ∧ _))

variable {a b : ProtocolVersions}

theorem Announceable.within (ok : Announceable a) {i : Nat} (bit : a.testBit i = true) :
    1 ≤ i ∧ i ≤ 9 := by
  have low : i ≠ 0 := by
    rintro rfl
    simp [ok.2.1] at bit
  have high : ¬ 10 ≤ i := fun far => by
    have := Nat.testBit_lt_two_pow (ok.2.2.trans_le (Nat.pow_le_pow_right two_pos far))
    simp [this] at bit
  omega

theorem highestVersion_spec (ok : Announceable a) :
    a.testBit (highestVersion a) = true ∧ highestVersion a ≤ 9 ∧ highestVersion a ≠ 0 ∧
      ∀ i, a.testBit i = true → 1 ≤ i ∧ i ≤ highestVersion a := by
  obtain ⟨-, member, greatest⟩ := highestLoop_spec a 30
  obtain ⟨i, bit⟩ := Nat.exists_testBit_of_ne_zero ok.1
  have here := ok.within bit
  have positive := greatest i here.1 (by omega) bit
  have top := member (by omega)
  refine ⟨top, (ok.within top).2, ?_, fun j bit => ⟨(ok.within bit).1, ?_⟩⟩
  · rw [highestVersion]
    omega
  · have := ok.within bit
    exact greatest j this.1 (by omega) bit

theorem highestVersion_and (ok : Announceable a) (b : ProtocolVersions) :
    (highestVersion (a &&& b) ≠ 0 →
      a.testBit (highestVersion (a &&& b)) = true ∧ b.testBit (highestVersion (a &&& b)) = true) ∧
      ∀ i, a.testBit i = true → b.testBit i = true → i ≤ highestVersion (a &&& b) := by
  obtain ⟨-, member, greatest⟩ := highestLoop_spec (a &&& b) 30
  simp only [Nat.testBit_and, Bool.and_eq_true] at member greatest
  refine ⟨member, fun i here there => ?_⟩
  have := ok.within here
  exact greatest i this.1 (by omega) ⟨here, there⟩

/-- The bitmap that a Hello has for the versions. -/
def announced (bitmap : ProtocolVersions) : ProtocolVersions :=
  if includeInHelloMsg bitmap (highestVersion bitmap) then bitmap else 0

def negotiated (a b : ProtocolVersions) : Nat :=
  negotiateVersion a (highestVersion b) (announced b)

theorem testBit_of_not_included
    (hidden : includeInHelloMsg a (highestVersion a) = false) (new : 4 ≤ highestVersion a) :
    (∀ i, a.testBit i = true ↔ i = highestVersion a) ∨
      ∀ i, a.testBit i = true ↔ 1 ≤ i ∧ i ≤ highestVersion a := by
  have cases : a = 2 ^ highestVersion a ∨ a = 2 ^ (highestVersion a + 1) - 2 := by
    simp only [includeInHelloMsg, decide_eq_false_iff_not] at hidden
    tauto
  rcases cases with one | all
  · refine .inl fun i => ?_
    rw [one, Nat.testBit_two_pow, ← one]
    simp [eq_comm]
  · refine .inr fun i => ?_
    have bits := Nat.testBit_two_pow_sub_succ (x := 1) (n := highestVersion a + 1)
      (Nat.one_lt_two_pow (by omega)) i
    rw [all, bits, ← all, Bool.and_eq_true, decide_eq_true_eq, Bool.not_eq_true',
      ← Bool.not_eq_true, Nat.testBit_one_eq_true_iff_self_eq_zero]
    omega

theorem negotiated_eq_highest (okA : Announceable a) (okB : Announceable b)
    (mine : negotiated a b ≠ 0) (theirs : negotiated b a ≠ 0) :
    negotiated a b = highestVersion (a &&& b) := by
  have specA := highestVersion_spec okA
  have specB := highestVersion_spec okB
  have both := highestVersion_and okA b
  have hiddenB := testBit_of_not_included (a := b)
  unfold negotiated negotiateVersion announced at mine theirs ⊢
  -- A Hello without a bitmap stands for one version or for all up to it, or it is an old one.
  cases x : includeInHelloMsg a (highestVersion a) <;>
    cases y : includeInHelloMsg b (highestVersion b)
  all_goals grind

theorem negotiated_agree (okA : Announceable a) (okB : Announceable b)
    (mine : negotiated a b ≠ 0) (theirs : negotiated b a ≠ 0) :
    negotiated a b = negotiated b a := by
  rw [negotiated_eq_highest okA okB mine theirs, negotiated_eq_highest okB okA theirs mine,
    Nat.and_comm]

/-- The negotiation succeeds on both sides just when the lower of the two highest versions is
supported by both, or when both announce a bitmap and there is a version in common. The version is
the highest one in common. -/
theorem negotiation_succeeds_iff (okA : Announceable a) (okB : Announceable b) :
    (negotiated a b ≠ 0 ∧ negotiated b a ≠ 0 ↔
      (a.testBit (min (highestVersion a) (highestVersion b)) = true ∧
        b.testBit (min (highestVersion a) (highestVersion b)) = true) ∨
      (announced a ≠ 0 ∧ announced b ≠ 0 ∧ a &&& b ≠ 0)) ∧
      (negotiated a b ≠ 0 → negotiated b a ≠ 0 → negotiated a b = highestVersion (a &&& b)) := by
  refine ⟨?_, negotiated_eq_highest okA okB⟩
  have specA := highestVersion_spec okA
  have specB := highestVersion_spec okB
  have both := highestVersion_and okA b
  have common : a &&& b ≠ 0 ↔ highestVersion (a &&& b) ≠ 0 := by
    refine ⟨fun some => ?_, fun found zero => found (by rw [zero]; rfl)⟩
    obtain ⟨i, bit⟩ := Nat.exists_testBit_of_ne_zero some
    rw [Nat.testBit_and, Bool.and_eq_true] at bit
    have := both.2 i bit.1 bit.2
    have := okA.within bit.1
    omega
  have hiddenA := testBit_of_not_included (a := a)
  have hiddenB := testBit_of_not_included (a := b)
  have new (v : Nat) (c : ProtocolVersions) (told : includeInHelloMsg c v = true) : 4 ≤ v :=
    (of_decide_eq_true told).1
  unfold negotiated negotiateVersion announced
  cases x : includeInHelloMsg a (highestVersion a) <;>
    cases y : includeInHelloMsg b (highestVersion b)
  all_goals grind

theorem negotiation_succeeds_iff_mixed :
    negotiated 0x12 0x3e = highestVersion (0x12 &&& 0x3e) :=
  (negotiation_succeeds_iff (by decide) (by decide)).2 (by decide) (by decide)

theorem testBit_negotiateVersion {v : Nat} {vs : ProtocolVersions}
    (found : negotiateVersion a v vs ≠ 0) : a.testBit (negotiateVersion a v vs) = true := by
  have mine := (highestLoop_spec a 30).2.1
  have both := (highestLoop_spec (a &&& vs) 30).2.1
  grind [negotiateVersion, highestVersion]

private theorem protocolVersions_message (v xid : Nat) (small : b < 2 ^ 32) :
    protocolVersions ⟨v, 0, xid, helloElement b⟩ = b := by
  have kind : big16 (helloElement b) 0 = 1 := big16_here ..
  have size : big16 (helloElement b) 2 = 8 := big16_within _ rfl
  have value : big32 (helloElement b) 4 = b := by
    exact (big32_bigBytes b).trans (Nat.mod_eq_of_lt small)
  have element : IsElement 4 2 (helloElement b) := ⟨by omega, by rw [size]; rfl⟩
  have accepted : (padded 4 2).Accepts [helloElement b].flatten :=
    accepts_flatten (by omega) (by omega) (by simpa using element)
  have items : (padded 4 2).items [helloElement b].flatten = [helloElement b] :=
    items_flatten (by simpa using element.spans (by omega))
  rw [List.flatten_singleton] at accepted items
  have valid : (padded 4 2).isProtocolRangeValid 8 (helloElement b) = true := by
    simpa [ElementLayout.isProtocolRangeValid, ElementLayout.Accepts, padded, helloElement]
      using accepted
  have layout : ElemType.helloElement.layout = padded 4 2 := rfl
  simp [protocolVersions, layout, valid, items, kind, versionBitMap, size, value]

/-- The Hello of an endpoint that supports the versions. -/
def helloOf (bitmap : ProtocolVersions) (xid : Nat) : Message :=
  sendHello (highestVersion bitmap) bitmap xid

private theorem helloOf_spec (ok : Announceable b) (xid : Nat) :
    (helloOf b xid).version = highestVersion b ∧ (helloOf b xid).type = 0 ∧
      protocolVersions (helloOf b xid) = announced b ∧ (helloOf b xid).body.length % 8 = 0 := by
  have positive := (highestVersion_spec ok).2.2.1
  have small : b < 2 ^ 32 := ok.2.2.trans (by decide)
  simp only [helloOf, sendHello, if_neg positive, ok.1, and_false, if_false, announced, true_and]
  split
  · exact ⟨protocolVersions_message _ _ small, by simp [helloElement]⟩
  · exact ⟨rfl, rfl⟩

/-- A message that an endpoint has sent behind the negotiation. -/
def Sent (e : Endpoint) (msg : Message) : Prop :=
  msg.version = e.version ∧ e.version ≠ 0 ∧ e.version ≤ 9 ∧ msg.type ≤ 64

/-- The negotiation is behind the endpoint: a Hello is not listened to any more. -/
def Past (e : Endpoint) : Prop :=
  e.state ≠ handshakeInit ∧
    (e.listening = true → e.state = sentFeaturesRequest ∨ e.state = sentPortRequest)

/-- What an endpoint has read from its peer, and what is on the way to it. -/
inductive Stage (e : Endpoint) (inbox : List Message) (peer : Endpoint) : Prop
  | silent (fresh : e.version = 0 ∧ e.listening = true)
      (early : e.state = handshakeInit ∨ e.state = sentHello)
      (quiet : peer.state = handshakeInit) (none : inbox = [])
  | greeted (fresh : e.version = 0 ∧ e.listening = true)
      (early : e.state = handshakeInit ∨ e.state = sentHello)
      (up : peer.state ≠ handshakeInit) {xid : Nat} {rest : List Message}
      (first : inbox = helloOf peer.versions xid :: rest) (later : ∀ msg ∈ rest, Sent peer msg)
  | settled (version : e.version = negotiated e.versions peer.versions) (found : e.version ≠ 0)
      (past : Past e) (up : peer.state ≠ handshakeInit) (later : ∀ msg ∈ inbox, Sent peer msg)

/-- Either endpoint has read its inbox without a fault. -/
def Linked (vs : Bool → ProtocolVersions) (s : System) : Prop :=
  ∀ p, (s p).1.versions = vs p ∧ (s p).1.down = false ∧ Stage (s p).1 (s p).2 (s !p).1

variable {e e' peer : Endpoint} {inbox out : List Message}
variable {vs : Bool → ProtocolVersions} {s : System}

theorem linked_put (p : Bool) (mine : e.versions = vs p ∧ e.down = false ∧ Stage e inbox (s !p).1)
    (theirs : (s !p).1.versions = vs !p ∧ (s !p).1.down = false ∧
      Stage (s !p).1 ((s !p).2 ++ out) e) : Linked vs (s.put p e inbox out) := by
  intro q
  obtain rfl | rfl : q = p ∨ q = !p := by cases p <;> cases q <;> simp
  · simpa [System.put] using mine
  · simpa [System.put] using theirs

theorem Stage.speak (stage : Stage peer inbox e) (versions : e'.versions = e.versions)
    (before : e.state ≠ handshakeInit) (behind : e'.state ≠ handshakeInit)
    (keeps : ∀ msg, Sent e msg → Sent e' msg) (sent : ∀ msg ∈ out, Sent e' msg) :
    Stage peer (inbox ++ out) e' := by
  cases stage with
  | silent fresh early quiet none => exact absurd quiet before
  | greeted fresh early up first later =>
    refine .greeted fresh early behind (by rw [first, versions]; rfl) fun msg member => ?_
    rcases List.mem_append.mp member with old | new
    · exact keeps msg (later msg old)
    · exact sent msg new
  | settled version found past up later =>
    refine .settled (versions ▸ version) found past behind fun msg member => ?_
    rcases List.mem_append.mp member with old | new
    · exact keeps msg (later msg old)
    · exact sent msg new

/-- A message has been read with a version in force: the endpoint gives up, or it goes on and
speaks that version. -/
def Proceeds (e : Endpoint) (version : Nat) (r : Endpoint × List Message) : Prop :=
  r.1.shut = true ∨ r.1.versions = e.versions ∧ r.1.version = version ∧ r.1.version ≠ 0 ∧
    r.1.down = e.down ∧ Past r.1 ∧ ∀ msg ∈ r.2, Sent r.1 msg

private theorem onMessage_past (xid : Nat) (msg : Message) (answer : Answer) (past : Past e)
    (found : e.version ≠ 0) (top : e.version ≤ 9) :
    Proceeds e e.version (e.onMessage xid msg answer) := by
  have same : Proceeds e e.version (e, []) := .inr ⟨rfl, rfl, found, rfl, past, by simp⟩
  have deaf (installed registered : Bool) : Proceeds e e.version
      ({ e with listening := false, installed := installed, registered := registered }, []) :=
    .inr ⟨rfl, rfl, found, rfl, ⟨past.1, by simp⟩, by simp⟩
  unfold Endpoint.onMessage
  dsimp only
  split_ifs with still hello features ports
  · exact same
  · rwa [Endpoint.onHello, if_pos (past.2 (by simpa using still))]
  · unfold Endpoint.onFeaturesReply
    dsimp only
    split_ifs
    · exact same
    · exact deaf _ _
    · refine .inr ⟨rfl, rfl, found, rfl, ⟨by simp, fun _ => .inr rfl⟩, ?_⟩
      simp only [List.mem_singleton, forall_eq]
      exact ⟨rfl, found, top, by simp [OFPT.multipartRequest]⟩
    · exact deaf _ _
    · exact .inl rfl
  · unfold Endpoint.onPortDescReply
    split_ifs
    · exact same
    · exact deaf _ _
  · exact same

theorem negotiated_le (ok : Announceable a) (found : negotiated a b ≠ 0) : negotiated a b ≤ 9 :=
  (ok.within (testBit_negotiateVersion found)).2

private theorem receive_hello (mine : Announceable e.versions) (ok : Announceable b)
    (fresh : e.version = 0 ∧ e.listening = true) (ready : e.state = sentHello) (sent xid : Nat)
    (answer : Answer) :
    Proceeds e (negotiated e.versions b) (e.receive xid (helloOf b sent) answer) := by
  obtain ⟨version, type, said, units⟩ := helloOf_spec ok sent
  obtain ⟨-, top, positive, -⟩ := highestVersion_spec ok
  have known : translateType (highestVersion b) 0 4 = 0 := by
    simp [translateType, positive, OFPT.flowMod]
  have hello : e.receive xid (helloOf b sent) answer = e.onHello xid (helloOf b sent) := by
    simp [Endpoint.receive, validateInput, fresh, Endpoint.onMessage, version, type, known, top,
      positive]
  rw [hello, Endpoint.onHello, if_neg (by simp [ready]), if_neg (by simp [units]), version, said,
    ← negotiated]
  by_cases none : negotiated e.versions b = 0
  · rw [if_pos none]
    exact .inl rfl
  · rw [if_neg none]
    split
    · refine .inr ⟨rfl, rfl, none, rfl, ⟨by simp, fun _ => .inl rfl⟩, ?_⟩
      simp only [List.mem_singleton, forall_eq]
      exact ⟨rfl, none, negotiated_le mine none, by simp⟩
    · exact .inr ⟨rfl, rfl, none, rfl, ⟨by simp [ready], by simp⟩, by simp⟩

private theorem linked_receive (ok : ∀ p, Announceable (vs p)) (linked : Linked vs s) {p : Bool}
    {msg : Message} (arrived : (s p).2 = msg :: inbox) (begun : (s p).1.state ≠ handshakeInit)
    (xid : Nat) (answer : Answer) :
    let r := (s p).1.receive xid msg answer
    r.1.shut = true ∨ Linked vs (s.put p r.1 inbox r.2) := by
  obtain ⟨versions, read, stage⟩ := linked p
  obtain ⟨versions', read', stage'⟩ := linked !p
  rw [Bool.not_not] at stage'
  rw [arrived] at stage
  have mine : Announceable (s p).1.versions := versions ▸ ok p
  have theirs : Announceable (s !p).1.versions := versions' ▸ ok !p
  obtain ⟨up, later, keeps, proceeds⟩ : (s !p).1.state ≠ handshakeInit ∧
      (∀ msg ∈ inbox, Sent (s !p).1 msg) ∧
      ((s p).1.version ≠ 0 → (s p).1.version = negotiated (s p).1.versions (s !p).1.versions) ∧
      Proceeds (s p).1 (negotiated (s p).1.versions (s !p).1.versions)
        ((s p).1.receive xid msg answer) := by
    cases stage with
    | silent _ _ _ none => cases none
    | @greeted fresh early up sent rest first later =>
      obtain ⟨rfl, rfl⟩ := List.cons.inj first
      exact ⟨up, later, fun found => absurd fresh.1 found,
        receive_hello mine theirs fresh (early.resolve_left begun) ..⟩
    | settled version found past up later =>
      have sent := later msg List.mem_cons_self
      -- The peer has sent a message behind its Hello, so it has negotiated, too.
      have same : (s p).1.version = (s !p).1.version := by
        cases stage' with
        | silent fresh => exact absurd fresh.1 sent.2.1
        | greeted fresh => exact absurd fresh.1 sent.2.1
        | settled version' found' =>
          rw [version, version']
          exact negotiated_agree mine theirs (version ▸ found) (version' ▸ found')
      refine ⟨up, fun msg member => later msg (List.mem_cons_of_mem _ member), fun _ => version, ?_⟩
      obtain ⟨spoken, -, top, known⟩ := sent
      rw [Endpoint.receive, ← version,
        if_pos (by simp [validateInput, spoken, same ▸ found, top, known, same])]
      exact onMessage_past xid msg answer past found (same ▸ top)
  refine proceeds.imp_right ?_
  rintro ⟨kept, number, found, down, past, spoken⟩
  refine linked_put p ⟨kept.trans versions, down.trans read, ?_⟩ ⟨versions', read', ?_⟩
  · exact .settled (by rw [number, kept]) found past up later
  · refine stage'.speak kept begun past.1 (fun msg old => ?_) spoken
    rwa [Sent, number, ← keeps old.2.1]

private theorem linked_step (ok : ∀ p, Announceable (vs p)) (linked : Linked vs s) (event : Event)
    (open_ : ∀ p, ((s.step event) p).1.shut = false) : Linked vs (s.step event) := by
  cases event with
  | up p xid =>
    by_cases early : (s p).1.state = handshakeInit
    · obtain ⟨versions, read, stage⟩ := linked p
      obtain ⟨versions', read', stage'⟩ := linked !p
      rw [Bool.not_not] at stage'
      simp only [System.step, if_pos early]
      refine linked_put p ⟨versions, read, ?_⟩ ⟨versions', read', ?_⟩
      · cases stage with
        | silent fresh _ quiet none => exact .silent fresh (.inr rfl) quiet none
        | greeted fresh _ up first later => exact .greeted fresh (.inr rfl) up first later
        | settled _ _ past => exact absurd early past.1
      · cases stage' with
        | silent fresh early' _ none =>
          exact .greeted fresh early' (by simp) (by rw [none]; rfl) (by simp)
        | greeted _ _ up => exact absurd early up
        | settled _ _ _ up => exact absurd early up
    · simpa only [System.step, if_neg early] using linked
  | receive p xid answer =>
    cases arrived : (s p).2 with
    | nil => simpa only [System.step, arrived] using linked
    | cons msg inbox =>
      by_cases ready : (s p).1.state = handshakeInit ∨ (s p).1.down = true
      · simpa only [System.step, arrived, if_pos ready] using linked
      · simp only [System.step, arrived, if_neg ready] at open_ ⊢
        have still := open_ p
        rcases linked_receive ok linked arrived (fun early => ready (.inl early)) xid answer with
          shut | linked'
        · simp [System.put, shut] at still
        · exact linked'
  | send p type xid body =>
    by_cases allowed : (s p).1.version ≠ 0 ∧ type ≤ 64
    · obtain ⟨versions, read, stage⟩ := linked p
      obtain ⟨versions', read', stage'⟩ := linked !p
      rw [Bool.not_not] at stage'
      simp only [System.step, if_pos allowed]
      refine linked_put p ⟨versions, read, stage⟩ ⟨versions', read', ?_⟩
      cases stage with
      | silent fresh => exact absurd fresh.1 allowed.1
      | greeted fresh => exact absurd fresh.1 allowed.1
      | settled version found past up later =>
        have top := negotiated_le (versions ▸ ok p) (version ▸ found)
        refine stage'.speak rfl past.1 past.1 (fun _ => id) ?_
        simp only [List.mem_singleton, forall_eq]
        exact ⟨rfl, found, version ▸ top, allowed.2⟩
    · simpa only [System.step, if_neg allowed] using linked

/-- Whatever the order in which two endpoints come up, read and write: as long as neither of them
shuts the connection down, no header is refused, an endpoint speaks a version it supports and has
one when nothing of a peer that is up is left to read, and two versions are the same. -/
theorem endpoints_agree (okA : Announceable a) (okB : Announceable b) (wantA wantB : Bool)
    (events : List Event)
    (open_ : Along System.step (fun s event => ∀ p, ((s.step event) p).1.shut = false)
      (.start (.start a wantA) (.start b wantB)) events) :
    let s := events.foldl System.step (.start (.start a wantA) (.start b wantB))
    (∀ p, (s p).1.down = false ∧
      ((s p).1.version ≠ 0 → (s p).1.versions.testBit (s p).1.version = true) ∧
      ((s !p).1.state ≠ handshakeInit → (s p).2 = [] → (s p).1.version ≠ 0)) ∧
      ((s true).1.version ≠ 0 → (s false).1.version ≠ 0 →
        (s true).1.version = (s false).1.version) := by
  intro s
  have ok (p : Bool) : Announceable (bif p then a else b) := by
    cases p
    · exact okB
    · exact okA
  have linked : Linked (fun p => bif p then a else b) s := by
    refine @foldl_of_along _ _ _ _ (fun _ => Linked _) _ [] _ open_ (fun p => ?_)
      fun _ _ event _ linked open_ => linked_step ok linked event open_
    cases p <;> exact ⟨rfl, rfl, .silent ⟨rfl, rfl⟩ (.inl rfl) rfl rfl⟩
  have numbers (p : Bool) (found : (s p).1.version ≠ 0) :
      (s p).1.version = negotiated (s p).1.versions (s !p).1.versions := by
    cases (linked p).2.2 with
    | silent fresh => exact absurd fresh.1 found
    | greeted fresh => exact absurd fresh.1 found
    | settled version => exact version
  refine ⟨fun p => ⟨(linked p).2.1, fun found => ?_, fun up read => ?_⟩, fun mine theirs => ?_⟩
  · have number := numbers p found
    rw [number] at found ⊢
    exact testBit_negotiateVersion found
  · cases (linked p).2.2 with
    | silent _ _ quiet => exact absurd quiet up
    | greeted _ _ _ first => simp [first] at read
    | settled _ found => exact found
  · have first := numbers true mine
    have second := numbers false theirs
    rw [Bool.not_true, (linked true).1, (linked false).1] at first
    rw [Bool.not_false, (linked true).1, (linked false).1] at second
    rw [first, second]
    exact negotiated_agree okA okB (first ▸ mine) (second ▸ theirs)

theorem endpoints_agree_both_up :
    let events : List Event := [.up true 1, .up false 2, .receive false 3 ⟨true, true, true⟩,
      .receive true 4 ⟨true, true, true⟩]
    let s := events.foldl System.step (.start (.start 0x12 true) (.start 0x3e false))
    (s true).1.version = (s false).1.version :=
  (endpoints_agree (by decide) (by decide) true false _ (by decide)).2 (by decide) (by decide)

/-- The listener of the program is behind a version that is supported, and behind a datapath that
is registered where features are wanted. -/
def Guarded (e : Endpoint) : Prop :=
  (e.state = sentFeaturesRequest ∨ e.state = sentPortRequest →
    e.versions.testBit e.version = true) ∧
    (e.state = sentPortRequest → e.registered = true) ∧
    (e.installed = true → e.listening = false ∧ e.versions.testBit e.version = true ∧
      (e.wantFeatures = true → e.registered = true))

private theorem guarded_receive (guarded : Guarded e) (xid : Nat) (msg : Message)
    (answer : Answer) :
    Guarded (e.receive xid msg answer).1 ∧
      (e.receive xid msg answer).1.versions = e.versions ∧
      (e.receive xid msg answer).1.wantFeatures = e.wantFeatures := by
  have supported (v : Nat) (vs : ProtocolVersions) (found : negotiateVersion e.versions v vs ≠ 0) :=
    testBit_negotiateVersion found
  unfold Endpoint.receive Endpoint.onMessage Endpoint.onHello Endpoint.onFeaturesReply
    Endpoint.onPortDescReply
  dsimp only
  split_ifs <;> simp_all [Guarded]

/-- Whatever a peer sends: when the listener of the program is installed, the version is one the
endpoint supports, and a datapath is registered if features are wanted. -/
theorem installed_behind_handshake (versions : ProtocolVersions) (wantFeatures : Bool)
    (received : List (Nat × Message × Answer)) :
    let e := received.foldl (fun e r => (e.receive r.1 r.2.1 r.2.2).1)
      { Endpoint.start versions wantFeatures with state := sentHello }
    e.installed = true →
      versions.testBit e.version = true ∧ (wantFeatures = true → e.registered = true) := by
  intro e installed
  have guarded : Guarded e ∧ e.versions = versions ∧ e.wantFeatures = wantFeatures := by
    refine List.foldlRecOn (motive := fun e => Guarded e ∧ e.versions = versions ∧
      e.wantFeatures = wantFeatures) received _ ⟨by simp [Guarded, Endpoint.start], rfl, rfl⟩ ?_
    rintro e ⟨guarded, same, want⟩ ⟨xid, msg, answer⟩ -
    obtain ⟨guarded', same', want'⟩ := guarded_receive guarded xid msg answer
    exact ⟨guarded', same'.trans same, want'.trans want⟩
  obtain ⟨-, supported, registered⟩ := guarded.1.2.2 installed
  rw [guarded.2.1] at supported
  rw [guarded.2.2] at registered
  exact ⟨supported, registered⟩

theorem installed_behind_handshake_controller :
    let received : List (Nat × Message × Answer) := [(1, ⟨1, 0, 1, []⟩, ⟨true, true, false⟩),
      (2, ⟨1, 6, 2, []⟩, ⟨true, true, false⟩)]
    let e := received.foldl (fun e r => (e.receive r.1 r.2.1 r.2.2).1)
      { Endpoint.start 0x12 true with state := sentHello }
    Nat.testBit 0x12 e.version = true ∧ (true = true → e.registered = true) :=
  installed_behind_handshake 0x12 true _ (by decide)

end Libofp.Sys.Handshake
