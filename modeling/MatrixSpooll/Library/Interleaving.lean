import Mathlib.Data.List.Basic

/-!
# Machines that work on several streams

A machine consumes the inputs of several streams in whatever order they come.
If every stream has its own part of the state, and a step reads and changes
only the part of its stream, then what the machine puts out for a stream does
not depend on how the streams were interleaved.
-/

namespace MatrixSpooll.Library

open List

variable {State : Type u} {Input : Type v} {Output : Type w} {Key : Type x} {View : Type y}

/-- Every input with what the machine puts out for it. -/
def transcript (step : State → Input → State × List Output) :
    State → List Input → List (Input × List Output)
  | _, [] => []
  | state, input :: rest =>
    (input, (step state input).2) :: transcript step (step state input).1 rest

/-- Two orders of the same streams. -/
def SameStreams [DecidableEq Key] (key : Input → Key) (first second : List Input) : Prop :=
  ∀ stream, first.filter (fun input => key input = stream) =
    second.filter (fun input => key input = stream)

theorem SameStreams.mem_iff [DecidableEq Key] {key : Input → Key}
    {first second : List Input} (same : SameStreams key first second)
    (input : Input) : input ∈ first ↔ input ∈ second := by
  have here := congrArg (fun inputs => input ∈ inputs) (same (key input))
  simpa using here

/-- All outputs in the order in which they came. -/
def outputs (step : State → Input → State × List Output) (state : State)
    (inputs : List Input) : List Output :=
  (transcript step state inputs).flatMap Prod.snd

/-- A property that every output has because of its input and of what holds of
the states on the way. -/
theorem mem_transcript {step : State → Input → State × List Output}
    (holds : State → Prop) (property : Input → List Output → Prop)
    (preserved : ∀ state input, holds state → holds (step state input).1)
    (each : ∀ state input, holds state → property input (step state input).2)
    {state : State} (initially : holds state) {inputs : List Input} {entry : Input × List Output}
    (member : entry ∈ transcript step state inputs) :
    entry.1 ∈ inputs ∧ property entry.1 entry.2 := by
  induction inputs generalizing state with
  | nil => cases member
  | cons input rest induction =>
    rcases mem_cons.mp member with isFirst | later
    · rw [isFirst]
      exact ⟨mem_cons_self, each state input initially⟩
    · obtain ⟨inRest, holdsThere⟩ :=
        induction (preserved state input initially) later
      exact ⟨mem_cons_of_mem _ inRest, holdsThere⟩

/-- Where all outputs bear the name of the stream they come from, those with a
name are those of the stream. -/
theorem filter_flatMap_of_tag [DecidableEq Key] {key : Input → Key}
    {tag : Output → Key} {stream : Key} {entries : List (Input × List Output)}
    (tagged : ∀ entry ∈ entries, ∀ output ∈ entry.2, tag output = key entry.1) :
    (entries.flatMap Prod.snd).filter (fun output => tag output = stream) =
      (entries.filter (fun entry => key entry.1 = stream)).flatMap Prod.snd := by
  induction entries with
  | nil => rfl
  | cons entry rest induction =>
    have here := tagged entry mem_cons_self
    have following := induction (fun later member =>
      tagged later (mem_cons_of_mem _ member))
    rw [flatMap_cons, filter_append, following]
    by_cases isStream : key entry.1 = stream
    · rw [filter_cons_of_pos (by simpa using isStream), flatMap_cons, filter_eq_self.mpr]
      intro output member
      simpa [here output member] using isStream
    · rw [filter_cons_of_neg (by simpa using isStream), filter_eq_nil_iff.mpr, nil_append]
      intro output member
      simpa [here output member] using isStream

/-- A step depends on the view of its own stream only, and changes no other
view. -/
structure Sharded (step : State → Input → State × List Output)
    (key : Input → Key) (view : Key → State → View) (allowed : Input → Prop) : Prop where
  own : ∀ state state' input, allowed input → view (key input) state = view (key input) state' →
    (step state input).2 = (step state' input).2 ∧ view (key input) (step state input).1 =
        view (key input) (step state' input).1
  other : ∀ state input stream, allowed input → key input ≠ stream →
    view stream (step state input).1 = view stream state

namespace Sharded

variable [DecidableEq Key] {step : State → Input → State × List Output}
  {key : Input → Key} {view : Key → State → View} {allowed : Input → Prop}

/-- What is put out for a stream is what the stream alone would give. -/
theorem transcript_filter (sharded : Sharded step key view allowed)
    {stream : Key} {inputs : List Input}
    (allAllowed : ∀ input ∈ inputs, allowed input) {state state' : State}
    (sameView : view stream state = view stream state') :
    (transcript step state inputs).filter (fun entry => key entry.1 = stream) =
      transcript step state' (inputs.filter (fun input => key input = stream)) := by
  induction inputs generalizing state state' with
  | nil => rfl
  | cons input rest induction =>
    have isAllowed := allAllowed input mem_cons_self
    have following : ∀ {next next' : State}, view stream next = view stream next' →
        (transcript step next rest).filter (fun entry => key entry.1 = stream) =
          transcript step next' (rest.filter (fun input => key input = stream)) :=
      induction (fun later member => allAllowed later (mem_cons_of_mem _ member))
    rw [transcript]
    by_cases isOwn : key input = stream
    · subst isOwn
      obtain ⟨sameOutput, sameNext⟩ := sharded.own state state' input isAllowed sameView
      rw [filter_cons_of_pos (by simp), filter_cons_of_pos (by simp), transcript, sameOutput,
        following sameNext]
    · have unchanged := sharded.other state input stream isAllowed isOwn
      rw [filter_cons_of_neg (by simpa using isOwn), filter_cons_of_neg (by simpa using isOwn),
        following (unchanged.trans sameView)]

theorem transcript_agree (sharded : Sharded step key view allowed)
    {first second : List Input} (same : SameStreams key first second)
    (allAllowed : ∀ input ∈ first, allowed input) (state : State)
    (stream : Key) : (transcript step state first).filter (fun entry => key entry.1 = stream) =
      (transcript step state second).filter (fun entry => key entry.1 = stream) := by
  have alsoAllowed : ∀ input ∈ second, allowed input := by
    intro input member
    exact allAllowed input ((same.mem_iff input).mpr member)
  rw [sharded.transcript_filter allAllowed rfl,
    sharded.transcript_filter alsoAllowed rfl, same stream]

end Sharded

end MatrixSpooll.Library
