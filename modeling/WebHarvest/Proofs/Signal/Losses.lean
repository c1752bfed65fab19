import Mathlib.Data.List.ReduceOption
import WebHarvest.Proofs.Signal.Order

/-!
# What an emission leaves that fails

An emission fails when its signal is refused or its line cannot be written. By then it has been
counted, and its signal, if one was made, is retained. Only the ledger and the subscribers do not
hear of it: the ledger holds the lines of the emissions that returned, under the numbers that these
had, and what is retained beside them is lost.
-/

set_option autoImplicit false

namespace WebHarvest

namespace FileTree

variable {tree : FileTree} {path : String}

/-- What a path holds, or held last when it cannot be reached. -/
def heldAt (tree : FileTree) (path last : String) : String :=
  match tree.target path with
  | .ok (_, text) => text
  | .error _ => last

theorem heldAt_of_target {place : List String} {text : String}
    (reached : tree.target path = .ok (place, text)) (last : String) :
    tree.heldAt path last = text := by
  unfold heldAt
  rw [reached]

theorem heldAt_heldAt (tree : FileTree) (path last : String) :
    tree.heldAt path (tree.heldAt path last) = tree.heldAt path last := by
  unfold heldAt
  cases tree.target path <;> rfl

end FileTree

theorem Emitter.writeLine_of_unreachable {σ : Type} {emitter : Emitter σ} {path : String}
    (ledger : emitter.ledger = some path) {files : FileTree} {failure : Failure}
    (unreachable : files.target path = .error failure) (signal : Signal) :
    emitter.writeLine files signal = (files, .error failure) := by
  have closed : files.append path "" = .error failure := by
    rw [FileTree.append, unreachable]
    rfl
  unfold writeLine
  rw [ledger]
  dsimp only
  rw [closed]

/-- A line is written as a whole or not at all. -/
theorem Emitter.writeLine_held {σ : Type} {emitter : Emitter σ} {path : String}
    (ledger : emitter.ledger = some path) (files : FileTree) (signal : Signal) :
    (∃ kept line, emitter.writeLine files signal = (kept, .ok ()) ∧ signal.line = .ok line ∧
      ∀ last, kept.heldAt path last = files.heldAt path last ++ line) ∨
    ∃ kept failure, emitter.writeLine files signal = (kept, .error failure) ∧
      ∀ last, kept.heldAt path last = files.heldAt path last := by
  cases reached : files.target path with
  | error failure =>
      exact .inr ⟨files, failure, writeLine_of_unreachable ledger reached signal, fun _ => rfl⟩
  | ok target =>
      obtain ⟨place, before⟩ := target
      cases made : signal.line with
      | error failure =>
          obtain ⟨opened, done, reachedAfter, -⟩ := FileTree.append_of_target reached ""
          rw [String.append_empty] at reachedAfter
          refine .inr ⟨opened, failure, ?_, fun last => ?_⟩
          · unfold writeLine
            rw [ledger]
            dsimp only
            rw [done, made]
            rfl
          · rw [FileTree.heldAt_of_target reached, FileTree.heldAt_of_target reachedAfter]
      | ok line =>
          obtain ⟨kept, written, reachedAfter, -⟩ := writeLine_of_target ledger reached made
          refine .inl ⟨kept, line, written, rfl, fun last => ?_⟩
          rw [FileTree.heldAt_of_target reached, FileTree.heldAt_of_target reachedAfter]

/-- What an emission does to the stores: it counts, it retains the signal if one is made, and it
changes what the ledger holds exactly if it returns. -/
theorem Emitter.publish_stores {σ : Type} {emitter after : Emitter σ} {path : String}
    (ledger : emitter.ledger = some path) {files kept : FileTree} {now : Timestamp}
    {kind : SignalKind} {payload : Value} {outcome : Except Failure Signal}
    (published : emitter.publish files now kind payload = ((after, kept), outcome)) :
    let made := (emitter.signalOf now kind payload).toOption
    after = { emitter with
        count := emitter.count + 1
        history := made.elim emitter.history fun signal =>
          latest emitter.limit (emitter.history ++ [signal]) } ∧
      match outcome with
      | .ok signal => made = some signal ∧ ∃ line, signal.line = .ok line ∧
          ∀ last, kept.heldAt path last = files.heldAt path last ++ line
      | .error _ => ∀ last, kept.heldAt path last = files.heldAt path last := by
  cases made : emitter.signalOf now kind payload with
  | error failure =>
      unfold publish at published
      simp only [made] at published
      cases published
      exact ⟨rfl, fun _ => rfl⟩
  | ok signal =>
      rw [publish_of_signal made] at published
      obtain ⟨_, line, written, isLine, held⟩ | ⟨_, failure, refused, held⟩ :=
        writeLine_held ledger files signal
      · rw [written] at published
        cases published
        exact ⟨rfl, rfl, line, isLine, held⟩
      · rw [refused] at published
        cases published
        exact ⟨rfl, held⟩

namespace Signal

namespace Emission

/-- What is picked of each emission, given how many have begun before it. -/
def pick {α : Type} (choose : Nat → Emission → Option α) (emissions : List Emission) : List α :=
  (emissions.mapIdx choose).reduceOption

@[simp]
theorem pick_concat {α : Type} (choose : Nat → Emission → Option α) (emissions : List Emission)
    (emission : Emission) :
    pick choose (emissions ++ [emission]) =
      pick choose emissions ++ (choose emissions.length emission).toList := by
  rw [pick, List.mapIdx_append, List.reduceOption_append, List.mapIdx_singleton, Nat.zero_add,
    List.reduceOption_singleton]
  rfl

/-- The signal that an emission makes when some have begun before it. -/
def made? (source : String) (before : Nat) (emission : Emission) : Option Signal :=
  (({ source, count := before } : Emitter Unit).signalOf emission.time emission.kind
    emission.payload).toOption

def lost? (source : String) (before : Nat) (emission : Emission) : Option Signal :=
  if emission.outcome.isOk then none else emission.made? source before

/-- The signals that emissions make, also those that fail then. -/
def made (source : String) : List Emission → List Signal := pick (made? source)

def returned (emissions : List Emission) : List Signal := emissions.filterMap (·.outcome.toOption)

/-- The signals that were made by emissions that have failed. -/
def lost (source : String) : List Emission → List Signal := pick (lost? source)

/-- The places of the emissions that have returned, counted from one. -/
def places : List Emission → List Int :=
  pick fun index emission => emission.outcome.toOption.map fun _ => (index : Int) + 1

variable {source : String} {emissions : List Emission} {emission : Emission}

theorem made?_of_emitter {σ : Type} {emitter : Emitter σ} (fromSource : emitter.source = source)
    (count : emitter.count = emissions.length) :
    emission.made? source emissions.length =
      (emitter.signalOf emission.time emission.kind emission.payload).toOption := by
  subst fromSource
  rw [← count]
  rfl

theorem sequence_of_made? {before : Nat} {signal : Signal}
    (made : emission.made? source before = some signal) : signal.sequence = before + 1 := by
  unfold made? at made
  cases outcome : ({ source, count := before } : Emitter Unit).signalOf emission.time emission.kind
      emission.payload with
  | error failure =>
      rw [outcome] at made
      cases made
  | ok same =>
      rw [outcome] at made
      cases made
      exact Emitter.sequence_of_signalOf outcome

theorem returned_concat (emissions : List Emission) (emission : Emission) :
    returned (emissions ++ [emission]) =
      returned emissions ++ emission.outcome.toOption.toList := by
  unfold returned
  rw [List.filterMap_append]
  cases outcome : emission.outcome <;> simp [outcome, Except.toOption]

/-- The signals that emissions make have different numbers, which none of the later ones has. -/
theorem made_numbered (source : String) (emissions : List Emission) :
    (made source emissions).Nodup ∧
      ∀ signal ∈ made source emissions, signal.sequence ≤ emissions.length := by
  induction emissions using List.reverseRecOn with
  | nil => exact ⟨List.nodup_nil, nofun⟩
  | append_singleton emissions emission ih =>
      obtain ⟨distinct, early⟩ := ih
      rw [made, pick_concat, List.length_append, List.length_singleton]
      cases same : emission.made? source emissions.length with
      | none =>
          rw [Option.toList_none, List.append_nil]
          exact ⟨distinct, fun signal member => by have := early signal member; omega⟩
      | some signal =>
          have number := sequence_of_made? same
          rw [Option.toList_some]
          refine ⟨List.nodup_append.mpr ⟨distinct, List.nodup_singleton signal, ?_⟩, ?_⟩
          · rintro other member _ isLast rfl
            obtain rfl := List.mem_singleton.mp isLast
            have := early _ member
            omega
          · refine List.forall_mem_append.mpr ⟨fun other member => ?_, ?_⟩
            · have := early other member
              omega
            · rw [List.forall_mem_singleton]
              omega

/-- Each emission that returned has given the signal that it made. -/
inductive Genuine (source : String) : List Emission → Prop where
  | nil : Genuine source []
  | concat {emissions : List Emission} {emission : Emission} (before : Genuine source emissions)
      (given : ∀ signal, emission.outcome = .ok signal →
        emission.made? source emissions.length = some signal) :
      Genuine source (emissions ++ [emission])

namespace Genuine

theorem perm (genuine : Genuine source emissions) :
    (made source emissions).Perm (returned emissions ++ lost source emissions) := by
  induction genuine with
  | nil => exact .refl _
  | @concat emissions emission _ given ih =>
      rw [returned_concat, made, lost, pick_concat, pick_concat, lost?]
      cases outcome : emission.outcome with
      | error =>
          rw [Except.toOption, Option.toList_none, List.append_nil, ← List.append_assoc]
          exact ih.append_right _
      | ok signal =>
          rw [given signal outcome]
          refine (ih.append_right _).trans ?_
          simp only [Except.toOption, Except.isOk, Except.toBool, if_true, Option.toList_none,
            Option.toList_some, List.append_nil, List.append_assoc]
          exact (List.perm_append_comm).append_left _

theorem numbers (genuine : Genuine source emissions) :
    (returned emissions).map Signal.sequence = places emissions := by
  induction genuine with
  | nil => rfl
  | @concat emissions emission _ given ih =>
      rw [returned_concat, places, pick_concat, List.map_append, ih]
      cases outcome : emission.outcome with
      | error => rfl
      | ok signal =>
          have number := sequence_of_made? (given signal outcome)
          simp [places, Except.toOption, number]

/-- What is retained of some signals is among those that returned exactly if none of it is lost. -/
theorem retained_iff (genuine : Genuine source emissions) {retained : List Signal}
    (among : retained ⊆ made source emissions) :
    (∀ signal ∈ retained, signal ∈ returned emissions) ↔
      retained.Disjoint (lost source emissions) := by
  have apart : (returned emissions).Disjoint (lost source emissions) :=
    (List.nodup_append'.mp (genuine.perm.nodup_iff.mp (made_numbered source emissions).1)).2.2
  constructor
  · exact fun all signal member isLost => apart (all signal member) isLost
  · intro none signal member
    rcases List.mem_append.mp (genuine.perm.mem_iff.mp (among member)) with isReturned | isLost
    · exact isReturned
    · exact (none member isLost).elim

end Genuine

/-- As many return as begin exactly if none fails. -/
theorem length_returned_eq_iff :
    (returned emissions).length = emissions.length ↔
      ∀ emission ∈ emissions, emission.outcome.isOk = true := by
  have same (emission : Emission) : emission.outcome.toOption.isSome = emission.outcome.isOk := by
    cases emission.outcome <;> rfl
  simp only [returned, List.filterMap_length_eq_length, same]

/-- The first numbers, counted from one. -/
def numbersTo (count : Nat) : List Int := (List.range count).map fun index => (index : Int) + 1

theorem numbersTo_succ (count : Nat) :
    numbersTo (count + 1) = numbersTo count ++ [(count : Int) + 1] := by
  simp [numbersTo, List.range_succ]

/-- The emissions that return have the first places exactly if none returns behind one that has
failed. -/
theorem places_eq_iff (emissions : List Emission) :
    places emissions = numbersTo (returned emissions).length ↔
      emissions.Pairwise fun earlier later =>
        later.outcome.isOk = true → earlier.outcome.isOk = true := by
  induction emissions using List.reverseRecOn with
  | nil => exact ⟨fun _ => .nil, fun _ => rfl⟩
  | append_singleton emissions emission ih =>
      rw [places, pick_concat, returned_concat, List.pairwise_append, ← places]
      cases outcome : emission.outcome with
      | error failure =>
          simp only [Except.toOption, Option.map_none, Option.toList_none, List.append_nil, ih,
            List.pairwise_singleton, List.mem_singleton, forall_eq, outcome,
            Except.isOk, Except.toBool, Bool.false_eq_true, false_implies, implies_true, and_true]
      | ok signal =>
          have next : places emissions ++ [(emissions.length : Int) + 1] =
              numbersTo ((returned emissions).length + 1) ↔
                places emissions = numbersTo (returned emissions).length ∧
                  (returned emissions).length = emissions.length := by
            rw [numbersTo_succ, List.append_singleton_inj]
            exact and_congr_right fun _ => by omega
          rw [Except.toOption, Option.map_some, Option.toList_some, Option.toList_some,
            List.length_append, List.length_singleton, next, ih, length_returned_eq_iff]
          simp only [List.pairwise_singleton, List.mem_singleton, forall_eq, outcome, Except.isOk,
            Except.toBool, forall_const, true_and]

end Emission

open Emission

section Books

variable {σ : Type} {path source : String} {limit : Nat} {first last : String}
  {emissions : List Emission} {lines : List String} {emitter : Emitter σ} {files : FileTree}

/-- What an emitter and its files tell of the emissions that have begun: all are counted, the latest
signals that were made are retained, and the ledger, which held `first`, has the lines of those that
returned. A ledger out of reach has held `last`. -/
structure Books (path source : String) (limit : Nat) (first last : String)
    (emissions : List Emission) (lines : List String) (emitter : Emitter σ) (files : FileTree) :
    Prop where
  fromSource : emitter.source = source
  hasLedger : emitter.ledger = some path
  hasLimit : emitter.limit = limit
  count : emitter.count = emissions.length
  history : emitter.history = Emitter.latest limit (made source emissions)
  genuine : Genuine source emissions
  written : List.Forall₂ (fun signal line => signal.line = .ok line) (returned emissions) lines
  text : files.heldAt path last = first ++ String.join lines

/-- The rosters are not among the books. -/
theorem Books.withRosters (books : Books path source limit first last emissions lines emitter files)
    (earlier : List (List σ)) (roster : List σ) :
    Books path source limit first last emissions lines { emitter with earlier, roster } files :=
  { books with }

theorem Books.publish (books : Books path source limit first last emissions lines emitter files)
    {now : Timestamp} {kind : SignalKind} {payload : Value} {after : Emitter σ} {kept : FileTree}
    {outcome : Except Failure Signal}
    (published : emitter.publish files now kind payload = ((after, kept), outcome)) :
    ∃ more, Books path source limit first last
      (emissions ++ [⟨now, kind, payload, outcome⟩]) more after kept := by
  let emission : Emission := ⟨now, kind, payload, outcome⟩
  have madeNow : emission.made? source emissions.length = _ :=
    made?_of_emitter books.fromSource books.count
  obtain ⟨rfl, ledger⟩ := Emitter.publish_stores books.hasLedger published
  have count : emitter.count + 1 = (emissions ++ [emission]).length := by
    rw [List.length_append, List.length_singleton, books.count]
  have history : (emitter.signalOf now kind payload).toOption.elim emitter.history
        (fun signal => Emitter.latest emitter.limit (emitter.history ++ [signal])) =
      Emitter.latest limit (made source (emissions ++ [emission])) := by
    rw [made, pick_concat, madeNow, ← made]
    cases (emitter.signalOf now kind payload).toOption with
    | none => rw [Option.elim_none, Option.toList_none, List.append_nil, books.history]
    | some signal =>
        rw [Option.elim_some, Option.toList_some, books.hasLimit, books.history, latest_concat]
  cases outcome with
  | error failure =>
      refine ⟨lines, books.fromSource, books.hasLedger, books.hasLimit, count, history,
        books.genuine.concat nofun, ?_, (ledger last).trans books.text⟩
      rw [returned_concat]
      exact (List.append_nil (returned emissions)).symm ▸ books.written
  | ok signal =>
      obtain ⟨isMade, line, isLine, held⟩ := ledger
      refine ⟨lines ++ [line], books.fromSource, books.hasLedger, books.hasLimit, count, history,
        books.genuine.concat ?_, ?_, ?_⟩
      · rintro _ ⟨⟩
        exact madeNow.trans isMade
      · rw [returned_concat]
        exact List.rel_append books.written (.cons isLine .nil)
      · rw [held, books.text, String.join_append, String.append_assoc]
        simp

end Books

section Runs

variable {σ : Type} {path source : String} {limit : Nat} {first last : String}
  {emissions more : List Emission} {hub after : Hub σ}

/-- A hub whose stores tell of the emissions, and whose subscribers have heard of none but those
that returned. -/
structure Hub.Tells (path source : String) (limit : Nat) (first last : String)
    (emissions : List Emission) (hub : Hub σ) : Prop where
  books : ∃ lines, Books path source limit first last emissions lines hub.emitter hub.files
  heard : ∀ task, (hub.view task).known ⊆ returned emissions

/-- What one task does is seen by it; to the others only the calls are new. -/
theorem Hub.Tells.update (tells : hub.Tells path source limit first last emissions) {task : Nat}
    {traffic : Traffic σ}
    (books : ∃ lines, Books path source limit first last (emissions ++ more) lines
      traffic.emitter traffic.files)
    (heard : traffic.known ⊆ returned more ++ (hub.view task).known) :
    (hub.update task traffic).Tells path source limit first last (emissions ++ more) := by
  have all : returned (emissions ++ more) = returned emissions ++ returned more :=
    List.filterMap_append
  have heardHere : traffic.known ⊆ returned (emissions ++ more) := by
    intro signal member
    rw [all]
    rcases List.mem_append.mp (heard member) with new | old
    · exact List.mem_append_right _ new
    · exact List.mem_append_left _ (tells.heard task old)
  refine ⟨books, fun other => ?_⟩
  by_cases same : other = task
  · subst same
    rwa [Hub.view_update]
  · intro signal member
    have stack : ((hub.update task traffic).view other).stack = (hub.view other).stack :=
      Function.update_of_ne same ..
    rw [Traffic.known, stack] at member
    rcases List.mem_append.mp member with underWay | called
    · rw [all]
      exact List.mem_append_left _ (tells.heard other (List.mem_append_left _ underWay))
    · exact heardHere (List.mem_append_right _ called)

theorem Hub.Tells.emit (tells : hub.Tells path source limit first last emissions) (task : Nat)
    (now : Timestamp) (kind : SignalKind) (payload : Value) :
    (hub.update task ((hub.view task).emit now kind payload).1).Tells path source limit first last
      (emissions ++ [⟨now, kind, payload, ((hub.view task).emit now kind payload).2⟩]) := by
  obtain ⟨lines, books⟩ := tells.books
  have heard := Traffic.known_emit (hub.view task) now kind payload
  rcases published : hub.emitter.publish hub.files now kind payload with ⟨⟨_, _⟩, outcome⟩
  rw [Traffic.emit_of_publish (hub.view task) published] at heard ⊢
  refine tells.update (books.publish published) ?_
  rw [heard, ← List.nil_append [_], returned_concat]
  exact List.Subset.refl _

/-- An emission that fails is counted, and retained if its signal is made; the ledger and the
subscribers do not hear of it. -/
theorem Hub.Tells.emit_error (tells : hub.Tells path source limit first last emissions)
    {task : Nat} {now : Timestamp} {kind : SignalKind} {payload : Value} {refused : Traffic σ}
    {failure : Failure}
    (failed : (hub.view task).emit now kind payload = (refused, .error failure)) :
    refused.emitter.count = hub.emitter.count + 1 ∧
      refused.emitter.history = Emitter.latest limit
        (made source (emissions ++ [⟨now, kind, payload, .error failure⟩])) ∧
      (∀ held, refused.files.heldAt path held = hub.files.heldAt path held) ∧
      refused.stack = hub.deliveries task ∧ refused.calls = hub.calls := by
  obtain ⟨lines, books⟩ := tells.books
  rcases published : hub.emitter.publish hub.files now kind payload with ⟨⟨after, kept⟩, outcome⟩
  rw [Traffic.emit_of_publish (hub.view task) published] at failed
  cases failed
  obtain ⟨_, booksAfter⟩ := books.publish published
  obtain ⟨stores, held⟩ := Emitter.publish_stores books.hasLedger published
  exact ⟨congrArg Emitter.count stores, booksAfter.history, held, rfl, rfl⟩

variable [BEq σ]

/-- One emission is a run, whose stores are those of the emission. -/
theorem Hub.runs_of_publish (hub : Hub σ) {now : Timestamp} {kind : SignalKind} {payload : Value}
    {emitter : Emitter σ} {files : FileTree} {outcome : Except Failure Signal}
    (published : hub.emitter.publish hub.files now kind payload = ((emitter, files), outcome)) :
    ∃ after, hub.Runs [⟨now, kind, payload, outcome⟩] after ∧ after.emitter = emitter ∧
      after.files = files := by
  have run := (Hub.Runs.start hub).emit 0 now kind payload
  rw [Traffic.emit_of_publish (hub.view 0) published] at run
  exact ⟨_, run, rfl, rfl⟩

theorem Hub.Tells.advance (tells : hub.Tells path source limit first last emissions) (task : Nat)
    (react : σ → Signal → Reaction σ) (now : Timestamp) :
    (hub.update task ((hub.view task).step react now)).Tells path source limit first last
      (emissions ++ ((hub.view task).nextEmission? now).toList) := by
  obtain ⟨lines, books⟩ := tells.books
  have stores := (hub.view task).step_stores react now
  cases next : (hub.view task).nextEmission? now with
  | none =>
      rw [next] at stores
      obtain ⟨⟨earlier, roster, emitter⟩, files, heard⟩ := stores
      refine tells.update ⟨lines, ?_⟩ heard
      rw [emitter, files, Option.toList_none, List.append_nil]
      exact books.withRosters earlier roster
  | some emission =>
      rw [next] at stores
      obtain ⟨published, heard⟩ := stores
      refine tells.update (books.publish published) ?_
      rwa [Option.toList_some, ← List.nil_append [emission], returned_concat]

theorem Hub.Tells.runs (tells : hub.Tells path source limit first last emissions)
    (runs : hub.Runs more after) :
    after.Tells path source limit first last (emissions ++ more) := by
  induction runs with
  | start =>
      rw [List.append_nil]
      exact tells
  | emit before task now kind payload ih =>
      rw [← List.append_assoc]
      exact ih.emit task now kind payload
  | advance before task react now ih =>
      rw [← List.append_assoc]
      exact ih.advance task react now
  | subscribe before subscriber ih =>
      obtain ⟨lines, books⟩ := ih.books
      exact ⟨⟨lines, books.withRosters _ _⟩, ih.heard⟩
  | unsubscribe before subscriber ih =>
      obtain ⟨lines, books⟩ := ih.books
      exact ⟨⟨lines, books.withRosters _ _⟩, ih.heard⟩

/-- Runs between which others may put the ledger out of reach and back again, but write nothing to
it. The text is what it holds, or held last. -/
inductive Hub.Endures (path before : String) (hub : Hub σ) :
    List Emission → Hub σ → String → Prop where
  | start : Endures path before hub [] hub (hub.files.heldAt path before)
  | run {mid after : Hub σ} {emissions more : List Emission} {held : String}
      (earlier : Endures path before hub emissions mid held) (runs : mid.Runs more after) :
      Endures path before hub (emissions ++ more) after (after.files.heldAt path held)
  | disturb {mid : Hub σ} {emissions : List Emission} {held : String}
      (earlier : Endures path before hub emissions mid held) (files : FileTree)
      (spared : files.heldAt path held = held) :
      Endures path before hub emissions { mid with files } held

theorem Hub.Endures.tells {before held : String}
    (endures : hub.Endures path before emissions after held)
    (fresh : hub.Tells path source limit (hub.files.heldAt path before)
      (hub.files.heldAt path before) []) :
    after.Tells path source limit (hub.files.heldAt path before) held emissions ∧
      after.files.heldAt path held = held := by
  induction endures with
  | start => exact ⟨fresh, FileTree.heldAt_heldAt ..⟩
  | @run mid after emissions more held earlier runs ih =>
      obtain ⟨tells, -⟩ := ih
      obtain ⟨⟨lines, books⟩, heard⟩ := tells.runs runs
      have stands := FileTree.heldAt_heldAt after.files path held
      exact ⟨⟨⟨lines, { books with text := stands.trans books.text }⟩, heard⟩, stands⟩
  | disturb earlier files spared ih =>
      obtain ⟨⟨⟨lines, books⟩, heard⟩, stands⟩ := ih
      have text := (spared.trans stands.symm).trans books.text
      exact ⟨⟨⟨lines, { books with text }⟩, heard⟩, spared⟩

/-- Whatever tasks emit on a new emitter and whichever emissions fail: all are counted, the latest
of the signals that were made are retained, and the ledger has one line for each emission that
returned, under its place among all. So the retained signals are in the ledger exactly if none of
them is lost, and its numbers have no gap exactly if none returned behind one that failed. An
emission that fails leaves the ledger as it was and notifies nobody, but it has been counted, and
its signal is retained if it was made. -/
theorem Hub.stores_despite_failures {limit : Int} {before held : String} {start files : FileTree}
    {emitter : Emitter σ}
    (created : Emitter.create source (some path) limit start = (files, .ok emitter))
    (endures : Hub.Endures path before { emitter, files } emissions after held) :
    let history := after.emitter.history
    let returned := returned emissions
    let lost := lost source emissions
    after.emitter.count = emissions.length ∧
    history = Emitter.latest limit.toNat (made source emissions) ∧
    (made source emissions).Perm (returned ++ lost) ∧
    (∃ lines, List.Forall₂ (fun signal line => signal.line = .ok line) returned lines ∧
      held = files.heldAt path before ++ String.join lines) ∧
    after.files.heldAt path held = held ∧
    returned.map Signal.sequence = places emissions ∧
    (∀ call ∈ after.calls, call.2 ∈ returned) ∧
    ((∀ signal ∈ history, signal ∈ returned) ↔ history.Disjoint lost) ∧
    (returned.map Signal.sequence = numbersTo returned.length ↔
      emissions.Pairwise fun earlier later =>
        later.outcome.isOk = true → earlier.outcome.isOk = true) ∧
    ∀ task now kind payload refused failure,
      (after.view task).emit now kind payload = (refused, .error failure) →
        refused.emitter.count = emissions.length + 1 ∧
        refused.emitter.history = Emitter.latest limit.toNat
          (made source (emissions ++ [⟨now, kind, payload, .error failure⟩])) ∧
        refused.files.heldAt path held = held ∧
        refused.stack = after.deliveries task ∧ refused.calls = after.calls := by
  intro history returned lost
  have fresh : Hub.Tells path source limit.toNat (files.heldAt path before)
      (files.heldAt path before) [] { emitter, files } := by
    rw [Emitter.eq_of_created created]
    refine ⟨⟨[], rfl, rfl, rfl, rfl, List.drop_nil.symm, .nil, .nil, ?_⟩,
      fun _ => List.nil_subset _⟩
    exact (FileTree.heldAt_heldAt ..).trans String.append_empty.symm
  obtain ⟨tells, stands⟩ := endures.tells fresh
  obtain ⟨lines, books⟩ := tells.books
  have numbers := books.genuine.numbers
  refine ⟨books.count, books.history, books.genuine.perm,
    ⟨lines, books.written, stands.symm.trans books.text⟩, stands, numbers, ?_, ?_, ?_, ?_⟩
  · exact fun call member => tells.heard 0
      (List.mem_append_right _ (List.mem_map_of_mem member))
  · refine books.genuine.retained_iff ?_
    rw [show history = _ from books.history]
    exact List.drop_subset _ _
  · rw [numbers]
    exact places_eq_iff emissions
  · intro task now kind payload refused failure failed
    obtain ⟨count, retained, same, stack, calls⟩ := tells.emit_error failed
    exact ⟨by rw [count, books.count], retained, (same held).trans stands, stack, calls⟩

/-- The first emission finds a directory in the place of the ledger, the second one finds none. -/
theorem Hub.stores_despite_failures_blocked :
    let now : Timestamp := { date := ⟨2024, 2, 29⟩, offset := some 0 }
    let emitter : Emitter Unit := { source := "s", ledger := some "ledger", limit := 2 }
    let first : Signal := ⟨1, .rateLimited, now, "s", []⟩
    let second : Signal := ⟨2, .retryAttempt, now, "s", []⟩
    Emitter.create "s" (some "ledger") 2 {} = ({}, .ok emitter) ∧
    ∃ failure after held,
      let emissions : List Emission :=
        [⟨now, .rateLimited, .null, .error failure⟩, ⟨now, .retryAttempt, .null, .ok second⟩]
      Hub.Endures "ledger" "" { emitter, files := {} } emissions after held ∧
        after.emitter.count = 2 ∧ after.emitter.history = [first, second] ∧
        second.line = .ok held ∧
        (¬ ∀ signal ∈ after.emitter.history, signal ∈ returned emissions) ∧
        (returned emissions).map Signal.sequence ≠ numbersTo (returned emissions).length := by
  intro now emitter first second
  have made : FileTree.makeDirectories {} "." = ({}, .ok ()) :=
    FileTree.makeDirectories_of_present (by decide +kernel) (by decide +kernel)
      (by decide +kernel : FileTree.locate {} "." = .ok []) rfl
  have created : Emitter.create "s" (some "ledger") 2 {} = ({}, .ok emitter) := by
    unfold Emitter.create
    rw [show Emitter.limitOf 2 = .ok 2 from rfl]
    dsimp only
    rw [(by decide +kernel : FilePath.parent "ledger" = "."), made]
    rfl
  have reached : FileTree.target {} "ledger" = .ok (["ledger"], "") :=
    FileTree.target_eq_ok_iff.mpr ⟨by decide +kernel, by decide +kernel, .inl ⟨rfl, rfl⟩⟩
  let blocked : FileTree := { entries := [(["ledger"], .directory)] }
  let failure : Failure := .file .isADirectory "ledger"
  have isBlocked : blocked.target "ledger" = .error failure :=
    FileTree.target_of_located (by decide +kernel)
      (by decide +kernel : blocked.locate "ledger" = .ok ["ledger"])
  have refused : emitter.publish blocked now .rateLimited .null =
      ((emitter.retain first, blocked), .error failure) := by
    have made : emitter.signalOf now .rateLimited .null = .ok first := rfl
    rw [Emitter.publish_of_signal made, Emitter.writeLine_of_unreachable rfl isBlocked]
    rfl
  have clock : now.IsClock := by
    refine ⟨⟨?_, ?_⟩, ?_, ?_, ?_, ?_, rfl⟩ <;> decide
  have data : Emission.IsData ⟨now, .retryAttempt, .null, .ok second⟩ :=
    ⟨clock, .inl rfl, ⟨List.nodup_nil, fun entry member => by cases member⟩⟩
  have few : 2 < 10 ^ Numeral.digitLimit :=
    Nat.lt_of_lt_of_le (by decide : 2 < 10 ^ 1) (Nat.pow_le_pow_right (by decide) (by decide))
  have writable : (emitter.retain first).Writable {} := by
    rintro path ⟨⟩
    exact ⟨_, _, reached⟩
  obtain ⟨last, kept, done⟩ : ∃ last kept,
      (emitter.retain first).publish {} now .retryAttempt .null = ((last, kept), .ok second) := by
    obtain ⟨kept, done, -⟩ := Emitter.publish_writable writable data few
    exact ⟨_, kept, done⟩
  have spared : blocked.heldAt "ledger" "" = "" := by
    unfold FileTree.heldAt
    rw [isBlocked]
  have holdsNothing : FileTree.heldAt {} "ledger" "" = "" := FileTree.heldAt_of_target reached ""
  have begun : Hub.Endures "ledger" "" { emitter, files := {} } [] _ _ := .start
  rw [holdsNothing] at begun
  obtain ⟨shut, failing, shutEmitter, shutFiles⟩ :=
    Hub.runs_of_publish { emitter, files := blocked } refused
  have failed := (begun.disturb blocked spared).run failing
  rw [shutFiles, spared] at failed
  rw [← shutEmitter] at done
  obtain ⟨after, succeeding, -, -⟩ := Hub.runs_of_publish { shut with files := {} } done
  have endures := (failed.disturb {} holdsNothing).run succeeding
  obtain ⟨count, history, -, ⟨lines, written, text⟩, -, -, -, inLedger, gapless, -⟩ :=
    stores_despite_failures created endures
  have retained : after.emitter.history = [first, second] := history
  refine ⟨created, failure, after, _, endures, count, retained, ?_, ?_, ?_⟩
  · obtain ⟨line, rest, isLine, nothing, rfl⟩ := List.forall₂_cons_left_iff.mp written
    obtain rfl := List.forall₂_nil_left_iff.mp nothing
    rw [text, isLine, holdsNothing]
    simp
  · refine mt inLedger.mp fun disjoint => ?_
    exact disjoint (retained ▸ List.mem_cons_self) List.mem_cons_self
  · refine mt gapless.mp fun ordered => ?_
    have := (List.pairwise_cons.mp ordered).1 _ List.mem_cons_self rfl
    cases this

end Runs

end Signal

end WebHarvest
