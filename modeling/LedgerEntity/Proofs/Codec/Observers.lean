import LedgerEntity.Codec.Request
import LedgerEntity.Proofs.Cache.Freshness

/-!
# Observers

Questions about a cache that have no effect on it.

A test for a key foretells what a look-up at the same time would find, though it
asks whether the entry is in time and the look-up asks whether it is late.  It
neither moves the entry nor drops it.  Size, capacity, time to live, counters and
description only read.

Two runs that are the same apart from such questions, whatever they are and
wherever they stand, leave the same codec after each of the other uses, with the
same answers and events.  The step behind this is that a question leaves the codec
as it is; the rest is induction along both runs.
-/

namespace LedgerEntity

/-- A question that is answered from the cache as it stands. -/
inductive Question where
  | size
  | isEmpty
  | capacity
  | ttl
  | counters
  deriving DecidableEq, Repr

/-- What a question finds out. -/
inductive Finding where
  | amount (n : Nat)
  | verdict (answer : Bool)
  | span (t : TimeSpan)
  | counters (c : Counters)
  deriving DecidableEq, Repr

/-- One use of a codec and its cache. -/
inductive Use where
  | request (r : Request)
  | question (q : Question)
  deriving DecidableEq, Repr

/-- What a use gives back; a question finds nothing out if there is no cache. -/
inductive UseReply where
  | reply (r : Reply)
  | finding (f : Option Finding)

/-- Whether a use only asks: for a key, for the description, or any question. -/
def Use.observes : Use → Bool
  | request (.contains _) => true
  | request .describe => true
  | request _ => false
  | question _ => true

/-- What a question finds out about a cache. -/
def Cache.finding
    (c : Cache) :
    Question → Finding
  | .size => .amount c.size
  | .isEmpty => .verdict c.isEmpty
  | .capacity => .amount c.capacity
  | .ttl => .span c.ttl
  | .counters => .counters c.counters

/-- Two lists are the same apart from some items, which may stand anywhere in either list. -/
inductive SameApartFrom
    {α : Type}
    (spare : α → Prop) :
    List α → List α → Prop
  | nil :
      SameApartFrom spare [] []
  | both
      {a : α}
      {xs ys : List α}
      (h : SameApartFrom spare xs ys) :
      SameApartFrom spare (a :: xs) (a :: ys)
  | left
      {a : α}
      {xs ys : List α}
      (ha : spare a)
      (h : SameApartFrom spare xs ys) :
      SameApartFrom spare (a :: xs) ys
  | right
      {a : α}
      {xs ys : List α}
      (ha : spare a)
      (h : SameApartFrom spare xs ys) :
      SameApartFrom spare xs (a :: ys)

/-- Filtering the spare items out leaves one and the same list. -/
theorem SameApartFrom.filter_eq
    {α : Type}
    {keep : α → Bool}
    {xs ys : List α}
    (h : SameApartFrom (fun a => keep a = false) xs ys) :
    xs.filter keep = ys.filter keep := by
  induction h with
  | nil =>
      rfl
  | both _ ih =>
      simp only [List.filter_cons, ih]
  | left ha _ ih =>
      rw [List.filter_cons_of_neg (by simp [ha]), ih]
  | right ha _ ih =>
      rw [List.filter_cons_of_neg (by simp [ha]), ih]

namespace Codec

section Definitions

variable (codec : Codec)

/-- Use a codec once. -/
def use
    (now : Int) :
    Use → Answer UseReply
  | .request r =>
      let answer := codec.perform now r
      ⟨.reply answer.value, answer.codec, answer.events⟩
  | .question q => ⟨.finding (codec.cache.map (Cache.finding · q)), codec, []⟩

/-- The codec after uses one after the other, each at its own time. -/
def afterUses
    (uses : List (Int × Use)) :
    Codec :=
  uses.foldl (fun codec u => (codec.use u.1 u.2).codec) codec

end Definitions

/-- The uses of a run, each with its answer, the codec it leaves and its events. -/
def history
    (codec : Codec) :
    List (Int × Use) → List ((Int × Use) × Answer UseReply)
  | [] => []
  | u :: later =>
      let answer := codec.use u.1 u.2
      (u, answer) :: answer.codec.history later

section OneUse

variable (codec : Codec)

/-- An observer leaves the codec as it is and reports nothing. -/
theorem use_of_observes
    {u : Use}
    (h : u.observes = true)
    (now : Int) :
    (codec.use now u).codec = codec ∧ (codec.use now u).events = [] := by
  obtain ⟨systemShard, cache⟩ := codec
  cases u with
  | question q => exact ⟨rfl, rfl⟩
  | request r =>
      cases r with
      | contains key => cases cache <;> exact ⟨rfl, rfl⟩
      | describe => cases cache <;> exact ⟨rfl, rfl⟩
      | parse raw options => cases h
      | parsePacked packed options => cases h
      | get key => cases h
      | insert key id => cases h
      | clear => cases h

variable {u : Int × Use}

theorem history_cons_of_observes
    (h : u.2.observes = true)
    (later : List (Int × Use)) :
    codec.history (u :: later) = (u, codec.use u.1 u.2) :: codec.history later := by
  rw [history, (codec.use_of_observes h u.1).1]

theorem events_history_cons_of_observes
    (h : u.2.observes = true)
    (later : List (Int × Use)) :
    (codec.history (u :: later)).flatMap (fun t => t.2.events) =
      (codec.history later).flatMap (fun t => t.2.events) := by
  rw [codec.history_cons_of_observes h, List.flatMap_cons, (codec.use_of_observes h u.1).2,
    List.nil_append]

theorem afterUses_cons_of_observes
    (h : u.2.observes = true)
    (later : List (Int × Use)) :
    codec.afterUses (u :: later) = codec.afterUses later := by
  rw [afterUses, List.foldl_cons, (codec.use_of_observes h u.1).1, afterUses]

end OneUse

section Runs

variable {xs ys : List (Int × Use)}
variable (h : SameApartFrom (fun u : Int × Use => u.2.observes = true) xs ys)
variable (codec : Codec)
include h

/-- Runs that are the same apart from observers have histories that are. -/
theorem sameApartFrom_history :
    SameApartFrom (fun t : (Int × Use) × Answer UseReply => t.1.2.observes = true)
      (codec.history xs) (codec.history ys) := by
  induction h generalizing codec with
  | nil =>
      exact .nil
  | both _ ih =>
      exact .both (ih _)
  | left ha _ ih =>
      rw [history_cons_of_observes _ ha]
      exact .left ha (ih codec)
  | right ha _ ih =>
      rw [history_cons_of_observes _ ha]
      exact .right ha (ih codec)

theorem events_history_eq :
    (codec.history xs).flatMap (fun t => t.2.events) =
      (codec.history ys).flatMap (fun t => t.2.events) := by
  induction h generalizing codec with
  | nil =>
      rfl
  | both _ ih =>
      simp only [history, List.flatMap_cons, ih]
  | left ha _ ih =>
      rw [events_history_cons_of_observes _ ha, ih]
  | right ha _ ih =>
      rw [events_history_cons_of_observes _ ha, ih]

theorem afterUses_eq :
    codec.afterUses xs = codec.afterUses ys := by
  induction h generalizing codec with
  | nil =>
      rfl
  | both _ ih =>
      exact ih _
  | left ha _ ih =>
      rw [afterUses_cons_of_observes _ ha, ih]
  | right ha _ ih =>
      rw [afterUses_cons_of_observes _ ha, ih]

end Runs

/--
Observers foretell and do not disturb.

A test for a key tells in every state and at every time whether a look-up would
find it.  If two runs of uses are the same apart from observers, so are their
histories: each other use has the same answer, leaves the same codec with the same
cache, and reports the same events.
-/
theorem observers_foretell_and_do_not_disturb :
    (∀ (c : Cache) (key : Key) (now : Int),
      c.contains key now = true ↔ ∃ id, (c.get key now).found = some id)
      ∧
    ∀ (codec : Codec) (xs ys : List (Int × Use)),
      SameApartFrom (fun u => u.2.observes = true) xs ys →
        SameApartFrom (fun t => t.1.2.observes = true) (codec.history xs)
          (codec.history ys) ∧
        (codec.history xs).filter (fun t => !t.1.2.observes) =
          (codec.history ys).filter (fun t => !t.1.2.observes) ∧
        (codec.history xs).flatMap (fun t => t.2.events) =
          (codec.history ys).flatMap (fun t => t.2.events) ∧
        codec.afterUses xs = codec.afterUses ys := by
  constructor
  · intro c key now
    rw [Cache.contains_eq_isSome_found, Option.isSome_iff_exists]
  · intro codec xs ys h
    have hhistory := sameApartFrom_history h codec
    refine ⟨hhistory, ?_, events_history_eq h codec, afterUses_eq h codec⟩
    apply SameApartFrom.filter_eq
    simpa using hhistory

/--
Asking for the oldest of two keys does not save it from the third, nor does asking for
more.
-/
theorem observers_foretell_and_do_not_disturb_victim :
    let id : EntityId := .present ⟨0, 0, 7, by decide⟩
    let oldest : Key := ⟨"0.0.7", .any⟩
    let full : List (Int × Use) :=
      [ (0, .request (.insert oldest id)), (1, .request (.insert ⟨"0.7", .any⟩ id)) ]
    let third : Int × Use := (2, .request (.insert ⟨"7", .any⟩ id))
    let xs :=
      full ++
        [(-1, .request (.contains oldest)), (2, .question .size), (2, .request .describe),
          third]
    let ys := full ++ [third, (9, .question .counters)]
    let codec : Codec := ⟨0, some (Cache.empty 2 ⟨10⟩ (by decide))⟩
    SameApartFrom (fun u => u.2.observes = true) xs ys ∧
    (codec.afterUses full).cache.map (Cache.contains · oldest (-1)) = some true ∧
    (∃ c, (codec.afterUses full).cache = some c ∧
      ∃ id, (c.get oldest (-1)).found = some id) ∧
    (codec.history xs).flatMap (fun t => t.2.events) = [.evicted oldest] ∧
    codec.afterUses xs = codec.afterUses ys := by
  intro id oldest full third xs ys codec
  obtain ⟨hforetells, hundisturbed⟩ := observers_foretell_and_do_not_disturb
  have hsame : SameApartFrom (fun u => u.2.observes = true) xs ys :=
    .both (.both (.left rfl (.left rfl (.left rfl (.both (.right rfl .nil))))))
  obtain ⟨-, -, hevents, hafter⟩ := hundisturbed codec xs ys hsame
  have hvictim :
      (codec.history ys).flatMap (fun t => t.2.events) = [.evicted oldest] := by
    rfl
  have hcontains :
      (codec.afterUses full).cache.map (Cache.contains · oldest (-1)) = some true := by
    rfl
  obtain ⟨c, hc, hcontains'⟩ := Option.map_eq_some_iff.1 hcontains
  exact
    ⟨hsame, hcontains, ⟨c, hc, (hforetells c oldest (-1)).1 hcontains'⟩,
      hevents.trans hvictim,
      hafter⟩

end Codec
end LedgerEntity
