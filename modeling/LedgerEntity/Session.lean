import LedgerEntity.Codec.Request
import LedgerEntity.Settings.Decoding

/-!
# Sessions

Several codecs side by side under one clock.

A session starts at time zero, and time moves only when a step says so.  Every
other step goes to one of the codecs and leaves the others alone.  A step for a
codec that does not exist, or could not be made, is refused and changes nothing.
-/

namespace LedgerEntity

/-- How a codec of a session is made: from settings in a document, or given as it is. -/
inductive CodecSource where
  | settings (document : Document)
  | direct (codec : Codec)

/--
Why a codec could not be made: the document does not denote settings, or the settings
cannot be used.
-/
inductive CreationError where
  | unreadable (mismatch : Mismatch)
  | unusable (error : SettingsError)

/-- Make a codec. -/
def CodecSource.create : CodecSource → Except CreationError (Codec.Answer Unit)
  | direct codec => .ok ⟨(), codec, []⟩
  | settings document =>
      match Settings.ofDocument document with
      | .error mismatch => .error (.unreadable mismatch)
      | .ok s =>
          match Codec.ofSettings s with
          | .error e => .error (.unusable e)
          | .ok answer => .ok answer

/--
What to do in a step: move the clock, forwards or backwards; ask the codec; put the
outcome of a reading into the cache, unless it is an error; or ask for the make-up of
the codec.
-/
inductive Action where
  | advance (nanoseconds : Int)
  | request (r : Request)
  | insertReading (key : Key) (reading : Except IdError EntityId)
  | inspect

/-- What a step tells; the make-up of a codec is its shard, and its cache if there is one. -/
inductive Outcome where
  | noCodec
  | advanced
  | replied (reply : Reply)
  | inspected (systemShard : UInt16) (cache : Option Cache)

/--
Codecs under one clock, which counts nanoseconds; a codec that could not be made leaves a
gap.
-/
structure Session where
  now : Int := 0
  codecs : List (Option Codec)

namespace Session

/-- What a step tells, the session after it, the cache of its codec, and the events. -/
structure Report where
  outcome : Outcome
  session : Session
  cache : Option Cache
  events : List Event

/-- Begin a session with the codecs that could be made. -/
def start
    (created : List (Except CreationError (Codec.Answer Unit))) :
    Session where
  codecs := created.map fun
    | .ok answer => some answer.codec
    | .error _ => none

/-- The codec at an index. -/
def codec?
    (s : Session)
    (index : Nat) :
    Option Codec :=
  (s.codecs[index]?).join

/-- Ask the codec at an index. -/
def ask
    (s : Session)
    (index : Nat)
    (codec : Codec)
    (request : Request) :
    Report :=
  let answer := codec.perform s.now request
  { outcome := .replied answer.value
    session := { s with codecs := s.codecs.set index (some answer.codec) }
    cache := answer.codec.cache
    events := answer.events }

/-- What comes back for a reading that cannot be put in. -/
def refuse
    (codec : Codec)
    (e : IdError) :
    Reply :=
  match codec.cache with
  | none => .noCache
  | some _ => .parsed (.error e)

/-- One step for the codec at an index. -/
def step
    (s : Session)
    (index : Nat)
    (action : Action) :
    Report :=
  match s.codec? index with
  | none => ⟨.noCodec, s, none, []⟩
  | some codec =>
      match action with
      | .advance nanoseconds =>
          ⟨.advanced, { s with now := s.now + nanoseconds }, codec.cache, []⟩
      | .inspect =>
          ⟨.inspected codec.systemShard codec.cache, s, codec.cache, []⟩
      | .request r => s.ask index codec r
      | .insertReading key (.ok id) => s.ask index codec (.insert key id)
      | .insertReading _ (.error e) =>
          ⟨.replied (refuse codec e), s, codec.cache, []⟩

/-- Steps one after the other. -/
def run
    (s : Session) :
    List (Nat × Action) → List Report
  | [] => []
  | (index, action) :: later =>
      let report := s.step index action
      report :: report.session.run later

end Session
end LedgerEntity
