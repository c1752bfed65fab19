import WebHarvest.Proofs.Signal.Ledger
import WebHarvest.Signal.Delivery

/-!
# Emissions of several tasks

Tasks share an emitter with its files, and each has its own deliveries under way. A task emits, or
the topmost of its deliveries goes on, which may be an emission of a subscriber; between any two
such steps any other task may take one, and the roster may change. Whatever the order is, the
number, the retained signals and the ledger speak of the same emissions: the number is how many have
begun, the retained signals are the latest of them, and the ledger holds one line for each.
-/

set_option autoImplicit false

namespace WebHarvest.Signal

/-- An emission that has begun: its time, its arguments, and what it gives to whoever emits. -/
structure Emission where
  time : Timestamp
  kind : SignalKind
  payload : Value
  outcome : Except Failure Signal

namespace Emission

/-- The entries of the payload; nothing counts as no entries. -/
def data (emission : Emission) : Record :=
  match emission.payload with
  | .map entries => entries.filterMap fun (key, value) => key.asText?.map fun name => (name, value)
  | _ => []

/-- An emission of JSON data at a time of the clock. -/
structure IsData (emission : Emission) : Prop where
  clock : emission.time.IsClock
  given : emission.payload = .null ∨ emission.payload = .record emission.data
  carried : emission.data.IsPayload

def signal (source : String) (emission : Emission) (number : Nat) : Signal :=
  ⟨number, emission.kind, emission.time, source, emission.data⟩

/-- The signals of emissions that begin one after another, numbered from one. -/
def signals (source : String) (emissions : List Emission) : List Signal :=
  emissions.mapIdx fun index emission => emission.signal source (index + 1)

theorem signals_concat (source : String) (emissions : List Emission) (emission : Emission) :
    signals source (emissions ++ [emission]) =
      signals source emissions ++ [emission.signal source (emissions.length + 1)] := by
  simp [signals, List.mapIdx_append]

theorem length_signals (source : String) (emissions : List Emission) :
    (signals source emissions).length = emissions.length := List.length_mapIdx

end Emission

/-- The emission that the topmost delivery makes next, if that is what its subscriber does. -/
def Traffic.nextEmission? {σ : Type} (traffic : Traffic σ) (now : Timestamp) : Option Emission :=
  match traffic.stack with
  | [] => none
  | top :: _ =>
      match top.current.acts with
      | .emit kind payload :: _ => some ⟨now, kind, payload, (traffic.emit now kind payload).2⟩
      | _ => none

section Steps

variable {σ : Type}

/-- The signals that subscribers hear of: those under way and those they have been called with. -/
def Traffic.known (traffic : Traffic σ) : List Signal :=
  traffic.stack.map (·.signal) ++ traffic.calls.map (·.2)

theorem Traffic.emit_of_publish (traffic : Traffic σ) {now : Timestamp} {kind : SignalKind}
    {payload : Value} {emitter : Emitter σ} {files : FileTree} {outcome : Except Failure Signal}
    (published :
      traffic.emitter.publish traffic.files now kind payload = ((emitter, files), outcome)) :
    traffic.emit now kind payload =
      ({ traffic with
          emitter, files
          stack := (outcome.toOption.map fun signal =>
            { signal, roster := emitter.rosterNumber }).toList ++ traffic.stack },
        outcome) := by
  unfold emit
  rw [published]
  cases outcome <;> rfl

/-- Subscribers hear of an emission only if it returns. -/
theorem Traffic.known_emit (traffic : Traffic σ) (now : Timestamp) (kind : SignalKind)
    (payload : Value) :
    (traffic.emit now kind payload).1.known =
      (traffic.emit now kind payload).2.toOption.toList ++ traffic.known := by
  rcases published : traffic.emitter.publish traffic.files now kind payload with ⟨⟨_, _⟩, outcome⟩
  rw [emit_of_publish _ published]
  cases outcome <;> rfl

variable [BEq σ]

/-- One step of a delivery is an emission, or it leaves the stores alone but for the rosters. -/
theorem Traffic.step_stores (traffic : Traffic σ) (react : σ → Signal → Reaction σ)
    (now : Timestamp) :
    let next := traffic.step react now
    match traffic.nextEmission? now with
    | none => (∃ earlier roster, next.emitter = { traffic.emitter with earlier, roster }) ∧
        next.files = traffic.files ∧ next.known ⊆ traffic.known
    | some emission =>
        traffic.emitter.publish traffic.files emission.time emission.kind emission.payload =
            ((next.emitter, next.files), emission.outcome) ∧
          next.known ⊆ emission.outcome.toOption.toList ++ traffic.known := by
  intro next
  rcases traffic with ⟨emitter, files, stack, calls, reports⟩
  cases stack with
  | nil => exact ⟨⟨_, _, rfl⟩, rfl, List.Subset.refl _⟩
  | cons top below =>
      rcases top with ⟨signal, number, called, ⟨acts, failure⟩⟩
      cases acts with
      | cons first rest =>
          cases first with
          | subscribe => exact ⟨⟨_, _, rfl⟩, rfl, List.Subset.refl _⟩
          | unsubscribe => exact ⟨⟨_, _, rfl⟩, rfl, List.Subset.refl _⟩
          | emit kind payload =>
              rcases published : emitter.publish files now kind payload with ⟨⟨_, _⟩, outcome⟩
              simp only [next, nextEmission?, step, act]
              rw [emit_of_publish _ published, emit_of_publish _ published]
              cases outcome with
              | error failure => exact ⟨published, List.Subset.refl _⟩
              | ok made => exact ⟨published, List.Subset.refl _⟩
      | nil =>
          cases failure with
          | some failure => exact ⟨⟨_, _, rfl⟩, rfl, List.Subset.refl _⟩
          | none =>
              simp only [next, nextEmission?, step]
              split
              · exact ⟨⟨_, _, rfl⟩, rfl, List.subset_cons_self _ _⟩
              · refine ⟨⟨_, _, rfl⟩, rfl, ?_⟩
                simp [known, withTop]

end Steps

/-- Tasks that share an emitter with its files. Each task waits for the deliveries of its stack. -/
structure Hub (σ : Type) where
  emitter : Emitter σ
  files : FileTree
  deliveries : Nat → List (Delivery σ) := fun _ => []
  calls : List (σ × Signal) := []
  reports : List LogRecord := []

namespace Hub

variable {σ : Type}

/-- The hub as one task sees it. -/
def view (hub : Hub σ) (task : Nat) : Traffic σ :=
  ⟨hub.emitter, hub.files, hub.deliveries task, hub.calls, hub.reports⟩

def update (hub : Hub σ) (task : Nat) (traffic : Traffic σ) : Hub σ :=
  { emitter := traffic.emitter
    files := traffic.files
    deliveries := Function.update hub.deliveries task traffic.stack
    calls := traffic.calls
    reports := traffic.reports }

/-- What tasks may have done to a hub, in any order, with the emissions in the order in which they
began. -/
inductive Runs [BEq σ] : Hub σ → List Emission → Hub σ → Prop where
  | start (hub : Hub σ) : Runs hub [] hub
  | emit {hub mid : Hub σ} {emissions : List Emission} (before : Runs hub emissions mid)
      (task : Nat) (now : Timestamp) (kind : SignalKind) (payload : Value) :
      Runs hub
        (emissions ++ [⟨now, kind, payload, ((mid.view task).emit now kind payload).2⟩])
        (mid.update task ((mid.view task).emit now kind payload).1)
  | advance {hub mid : Hub σ} {emissions : List Emission} (before : Runs hub emissions mid)
      (task : Nat) (react : σ → Signal → Reaction σ) (now : Timestamp) :
      Runs hub (emissions ++ ((mid.view task).nextEmission? now).toList)
        (mid.update task ((mid.view task).step react now))
  | subscribe {hub mid : Hub σ} {emissions : List Emission} (before : Runs hub emissions mid)
      (subscriber : σ) :
      Runs hub emissions { mid with emitter := mid.emitter.subscribe subscriber }
  | unsubscribe {hub mid : Hub σ} {emissions : List Emission} (before : Runs hub emissions mid)
      (subscriber : σ) :
      Runs hub emissions { mid with emitter := mid.emitter.unsubscribe subscriber }

end Hub

section Records

variable {σ : Type}

/-- Where a ledger is kept: its path, its place among the files, and what stood there at first. -/
structure Ledger where
  path : String
  place : List String
  before : String

/-- An emitter and its files that speak of the same signals. -/
structure Recorded (ledger : Ledger) (source : String) (limit : Nat) (emitter : Emitter σ)
    (files : FileTree) (signals : List Signal) (lines : List String) : Prop where
  fromSource : emitter.source = source
  hasLedger : emitter.ledger = some ledger.path
  hasLimit : emitter.limit = limit
  count : emitter.count = signals.length
  history : emitter.history = Emitter.latest limit signals
  ofSignals : List.Forall₂ IsLineOf lines signals
  held : files.target ledger.path = .ok (ledger.place, ledger.before ++ joined lines)

theorem latest_concat (limit : Nat) (signals : List Signal) (signal : Signal) :
    Emitter.latest limit (Emitter.latest limit signals ++ [signal]) =
      Emitter.latest limit (signals ++ [signal]) := by
  unfold Emitter.latest
  rw [← List.drop_append_of_le_length (Nat.sub_le _ _), List.drop_drop]
  congr 1
  simp only [List.length_drop, List.length_append, List.length_singleton]
  omega

variable {ledger : Ledger} {source : String} {limit : Nat} {emitter : Emitter σ}
  {files : FileTree} {signals : List Signal} {lines : List String}

theorem signalOf_data (emitter : Emitter σ) {emission : Emission} (data : emission.IsData) :
    emitter.signalOf emission.time emission.kind emission.payload =
      .ok (emission.signal emitter.source (emitter.count + 1)) := by
  have checked : Check.record .host
      (if emission.payload.isEmpty then .map [] else emission.payload) =
        .accepted emission.data := by
    rcases data.given with nothing | given
    · have none : emission.data = [] := by
        unfold Emission.data
        rw [nothing]
      rw [nothing, none]
      rfl
    · cases empty : emission.payload.isEmpty with
      | true =>
          have none : emission.data = [] := by
            rw [given] at empty
            exact List.map_eq_nil_iff.mp (List.isEmpty_iff.mp empty)
          rw [none]
          rfl
      | false =>
          rw [if_neg Bool.false_ne_true, given]
          exact Check.record_record .host emission.data
  unfold Emitter.signalOf
  dsimp only
  rw [checked]
  rfl

/-- One emission adds its signal to all three. -/
theorem Recorded.publish
    (recorded : Recorded ledger source limit emitter files signals lines) {emission : Emission}
    (data : emission.IsData)
    (few : signals.length + 1 < 10 ^ Numeral.digitLimit) :
    ∃ after kept line,
      emitter.publish files emission.time emission.kind emission.payload =
        ((after, kept), .ok (emission.signal source (signals.length + 1))) ∧
      Recorded ledger source limit after kept
        (signals ++ [emission.signal source (signals.length + 1)]) (lines ++ [line]) := by
  have made := signalOf_data emitter data
  rw [recorded.fromSource, recorded.count] at made
  generalize same : emission.signal source (signals.length + 1) = signal at made ⊢
  have recordable : signal.IsRecordable := by
    subst same
    exact ⟨Numeral.length_toString_le (by decide) few, data.clock, data.carried⟩
  obtain ⟨line, isLine⟩ := recordable.line
  obtain ⟨kept, written, held, -⟩ :=
    Emitter.writeLine_of_target recorded.hasLedger recorded.held isLine.written
  refine ⟨emitter.retain signal, kept, line, ?_, ?_⟩
  · rw [Emitter.publish_of_signal made, written]
    rfl
  · refine ⟨recorded.fromSource, recorded.hasLedger, recorded.hasLimit, ?_, ?_, ?_, ?_⟩
    · rw [List.length_append, List.length_singleton, ← recorded.count]
      rfl
    · change Emitter.latest emitter.limit (emitter.history ++ [signal]) = _
      rw [recorded.hasLimit, recorded.history, latest_concat]
    · exact List.rel_append recorded.ofSignals (.cons isLine .nil)
    · rw [joined_concat, ← String.append_assoc]
      exact held

theorem Recorded.emit {traffic : Traffic σ}
    (recorded : Recorded ledger source limit traffic.emitter traffic.files signals lines)
    {emission : Emission} (data : emission.IsData)
    (few : signals.length + 1 < 10 ^ Numeral.digitLimit) :
    ∃ after line,
      traffic.emit emission.time emission.kind emission.payload =
        (after, .ok (emission.signal source (signals.length + 1))) ∧
      Recorded ledger source limit after.emitter after.files
        (signals ++ [emission.signal source (signals.length + 1)]) (lines ++ [line]) := by
  obtain ⟨after, kept, line, published, recordedAfter⟩ := recorded.publish data few
  let delivery : Delivery σ :=
    { signal := emission.signal source (signals.length + 1), roster := after.rosterNumber }
  refine ⟨{ traffic with emitter := after, files := kept, stack := delivery :: traffic.stack },
    line, ?_, recordedAfter⟩
  unfold Traffic.emit
  rw [published]

theorem Recorded.subscribe
    (recorded : Recorded ledger source limit emitter files signals lines) (subscriber : σ) :
    Recorded ledger source limit (emitter.subscribe subscriber) files signals lines :=
  ⟨recorded.fromSource, recorded.hasLedger, recorded.hasLimit, recorded.count, recorded.history,
    recorded.ofSignals, recorded.held⟩

theorem Recorded.unsubscribe [BEq σ]
    (recorded : Recorded ledger source limit emitter files signals lines) (subscriber : σ) :
    Recorded ledger source limit (emitter.unsubscribe subscriber) files signals lines :=
  ⟨recorded.fromSource, recorded.hasLedger, recorded.hasLimit, recorded.count, recorded.history,
    recorded.ofSignals, recorded.held⟩

/-- Nothing but an emission changes what the three speak of. -/
theorem Recorded.step_quiet [BEq σ] {traffic : Traffic σ}
    (recorded : Recorded ledger source limit traffic.emitter traffic.files signals lines)
    (react : σ → Signal → Reaction σ) {now : Timestamp}
    (quiet : traffic.nextEmission? now = none) :
    Recorded ledger source limit (traffic.step react now).emitter
      (traffic.step react now).files signals lines := by
  have stores := traffic.step_stores react now
  rw [quiet] at stores
  obtain ⟨⟨earlier, roster, emitter⟩, files, -⟩ := stores
  rw [emitter, files]
  exact { recorded with }

theorem Recorded.step_emits [BEq σ] {traffic : Traffic σ}
    (recorded : Recorded ledger source limit traffic.emitter traffic.files signals lines)
    (react : σ → Signal → Reaction σ) {now : Timestamp} {emission : Emission}
    (next : traffic.nextEmission? now = some emission) (data : emission.IsData)
    (few : signals.length + 1 < 10 ^ Numeral.digitLimit) :
    ∃ line, emission.outcome = .ok (emission.signal source (signals.length + 1)) ∧
      Recorded ledger source limit (traffic.step react now).emitter
        (traffic.step react now).files
        (signals ++ [emission.signal source (signals.length + 1)]) (lines ++ [line]) := by
  have stores := traffic.step_stores react now
  rw [next] at stores
  obtain ⟨after, kept, line, published, recordedAfter⟩ := recorded.publish data few
  obtain ⟨both, outcome⟩ := Prod.mk.inj (stores.1.symm.trans published)
  obtain ⟨emitter, files⟩ := Prod.mk.inj both
  rw [emitter, files]
  exact ⟨line, outcome, recordedAfter⟩

theorem recorded_of_created {limit : Int} {start files : FileTree} {emitter : Emitter σ}
    (created : Emitter.create source (some ledger.path) limit start = (files, .ok emitter))
    (writable : files.target ledger.path = .ok (ledger.place, ledger.before)) :
    Recorded ledger source limit.toNat emitter files [] [] := by
  have empty : joined [] = "" := rfl
  rw [Emitter.eq_of_created created]
  exact ⟨rfl, rfl, rfl, rfl, List.drop_nil.symm, .nil, by rw [writable, empty, String.append_empty]⟩

end Records

section Runs

variable {σ : Type} [BEq σ] {ledger : Ledger} {source : String} {limit : Nat}

/-- After any run the hub speaks of the emissions of the run, and each of them has given its
signal. -/
theorem Hub.Runs.recorded {hub after : Hub σ} {emissions : List Emission}
    (runs : hub.Runs emissions after)
    (fresh : Recorded ledger source limit hub.emitter hub.files [] [])
    (data : ∀ emission ∈ emissions, emission.IsData)
    (few : emissions.length < 10 ^ Numeral.digitLimit) :
    ∃ lines, emissions.map Emission.outcome =
        (Emission.signals source emissions).map .ok ∧
      Recorded ledger source limit after.emitter after.files
        (Emission.signals source emissions) lines := by
  -- One more emission gives the signal of the next number.
  have concat {emissions : List Emission} {emission : Emission}
      (outcomes : emissions.map Emission.outcome = (Emission.signals source emissions).map .ok)
      (outcome : emission.outcome = .ok (emission.signal source (emissions.length + 1))) :
      (emissions ++ [emission]).map Emission.outcome =
        (Emission.signals source (emissions ++ [emission])).map .ok := by
    rw [Emission.signals_concat, List.map_append, List.map_append, outcomes, List.map_singleton,
      List.map_singleton, outcome]
  induction runs with
  | start => exact ⟨[], rfl, fresh⟩
  | @emit mid emissions before task now kind payload ih =>
      rw [List.length_append, List.length_singleton] at few
      obtain ⟨earlier, latest⟩ := List.forall_mem_append.mp data
      obtain ⟨lines, outcomes, recorded⟩ := ih earlier (Nat.lt_of_succ_lt few)
      have recordedView : Recorded ledger source limit (mid.view task).emitter
          (mid.view task).files (Emission.signals source emissions) lines := recorded
      obtain ⟨traffic, line, emitted, recordedAfter⟩ := recordedView.emit
        (List.forall_mem_singleton.mp latest) (by rwa [Emission.length_signals])
      rw [Emission.length_signals] at emitted recordedAfter
      dsimp only at emitted
      refine ⟨lines ++ [line], concat outcomes (congrArg Prod.snd emitted), ?_⟩
      rw [Emission.signals_concat, emitted]
      exact recordedAfter
  | @advance mid emissions before task react now ih =>
      obtain ⟨earlier, latest⟩ := List.forall_mem_append.mp data
      rw [List.length_append] at few
      obtain ⟨lines, outcomes, recorded⟩ :=
        ih earlier (Nat.lt_of_le_of_lt (Nat.le_add_right ..) few)
      have recordedView : Recorded ledger source limit (mid.view task).emitter
          (mid.view task).files (Emission.signals source emissions) lines := recorded
      cases next : (mid.view task).nextEmission? now with
      | none =>
          rw [Option.toList_none, List.append_nil]
          exact ⟨lines, outcomes, recordedView.step_quiet react next⟩
      | some emission =>
          rw [next, Option.toList_some] at latest few
          rw [List.length_singleton] at few
          obtain ⟨line, outcome, recordedAfter⟩ := recordedView.step_emits react next
            (List.forall_mem_singleton.mp latest) (by rwa [Emission.length_signals])
          rw [Emission.length_signals] at outcome recordedAfter
          rw [Option.toList_some]
          refine ⟨lines ++ [line], concat outcomes outcome, ?_⟩
          rw [Emission.signals_concat]
          exact recordedAfter
  | subscribe before subscriber ih =>
      obtain ⟨lines, outcomes, recorded⟩ := ih data few
      exact ⟨lines, outcomes, recorded.subscribe subscriber⟩
  | unsubscribe before subscriber ih =>
      obtain ⟨lines, outcomes, recorded⟩ := ih data few
      exact ⟨lines, outcomes, recorded.unsubscribe subscriber⟩

/-- However tasks interleave on a new emitter, the emissions are numbered from one in the order in
which they begin, the latest of their signals are retained, and the ledger, which keeps what it held
before, holds one line for each and is read back as their signals. -/
theorem Hub.runs_agree {limit : Int} {start files : FileTree} {emitter : Emitter σ}
    {ledger : Ledger} {after : Hub σ} {emissions : List Emission}
    (created : Emitter.create source (some ledger.path) limit start = (files, .ok emitter))
    (writable : files.target ledger.path = .ok (ledger.place, ledger.before))
    (whole : HoldsLines ledger.before)
    (runs : Hub.Runs { emitter, files } emissions after)
    (data : ∀ emission ∈ emissions, emission.IsData)
    (few : emissions.length < 10 ^ Numeral.digitLimit) :
    let signals := Emission.signals source emissions
    emissions.map Emission.outcome = signals.map .ok ∧
    signals.map Signal.sequence =
      (List.range emissions.length).map (fun (index : Nat) => (index : Int) + 1) ∧
    after.emitter.history = signals.drop (emissions.length - limit.toNat) ∧
    after.emitter.history.length = min emissions.length limit.toNat ∧
    (∃ lines, List.Forall₂ IsLineOf lines signals ∧
      after.files.target ledger.path = .ok (ledger.place, ledger.before ++ joined lines) ∧
      (emissions ≠ [] → after.files.read ledger.path = .ok (ledger.before ++ joined lines))) ∧
    (∀ now, loadLedger after.files now ledger.path =
      (loadLedger files now ledger.path).map (· ++ signals)) ∧
    ∀ now loaded, loadLedger after.files now ledger.path = .ok loaded →
      after.emitter.history <:+ loaded := by
  intro signals
  obtain ⟨lines, outcomes, recorded⟩ :=
    runs.recorded (recorded_of_created created writable) data few
  have count : signals.length = emissions.length := Emission.length_signals source emissions
  have history : after.emitter.history = signals.drop (emissions.length - limit.toNat) := by
    rw [recorded.history, Emitter.latest, count]
  have loads (now : Timestamp) : loadLedger after.files now ledger.path =
      (loadLedger files now ledger.path).map (· ++ signals) := by
    rw [loadLedger_of_target recorded.held, loadLedger_of_target writable, ofLedger_append whole,
      ofLedger_joined recorded.ofSignals]
    cases ofLedger now ledger.before <;> rfl
  refine ⟨outcomes, ?_, history, ?_, ⟨lines, recorded.ofSignals, recorded.held, fun some => ?_⟩,
    loads, fun now loaded read => ?_⟩
  · refine List.ext_getElem (by simp [count]) fun index inside _ => ?_
    simp [signals, Emission.signals, Emission.signal]
  · rw [history, List.length_drop, count]
    omega
  · refine FileTree.read_of_nonempty recorded.held fun empty => ?_
    have size : lines.length = emissions.length := recorded.ofSignals.length_eq.trans count
    cases lines with
    | nil => exact some (List.length_eq_zero_iff.mp size.symm)
    | cons line lines =>
        have chars := congrArg String.toList empty
        simp [joined_cons, String.toList_append] at chars
  · rw [loads] at read
    cases earlier : loadLedger files now ledger.path with
    | error failure =>
        rw [earlier] at read
        cases read
    | ok first =>
        rw [earlier] at read
        cases read
        rw [history]
        exact (List.drop_suffix _ _).trans (List.suffix_append _ _)

/-- Two tasks emit, with line ends of all kinds in what they say; one signal is retained. -/
theorem Hub.runs_agree_twice :
    let now : Timestamp := { date := ⟨2024, 2, 29⟩, hour := 12, micros := 5, offset := some 0 }
    let said : Record := [("text", .text "a\n\r\u0085\u2028\"")]
    let counted : Record := [("n", .int (-3)), ("inner", .list [.record said])]
    let ledger : Ledger := ⟨"ledger", ["ledger"], ""⟩
    let emitter : Emitter Unit := { source := "s", ledger := some "ledger", limit := 1 }
    let first : Signal := ⟨1, .rateLimited, now, "s", said⟩
    let second : Signal := ⟨2, .retryAttempt, now, "s", counted⟩
    Emitter.create "s" (some ledger.path) 1 {} = ({}, .ok emitter) ∧
    FileTree.target {} ledger.path = .ok (ledger.place, ledger.before) ∧
    HoldsLines ledger.before ∧
    ∃ emissions after, Hub.Runs { emitter, files := {} } emissions after ∧
      (∀ emission ∈ emissions, emission.IsData) ∧
      emissions.map Emission.outcome = [.ok first, .ok second] ∧
      after.emitter.history = [second] ∧
      loadLedger after.files now ledger.path = .ok [first, second] := by
  intro now said counted ledger emitter first second
  have located : FileTree.locate {} "." = .ok [] := by decide +kernel
  have made : FileTree.makeDirectories {} "." = ({}, .ok ()) :=
    FileTree.makeDirectories_of_present (by decide +kernel) (by decide +kernel) located rfl
  have created : Emitter.create "s" (some ledger.path) 1 {} = ({}, .ok emitter) := by
    have allowed : Emitter.limitOf 1 = .ok 1 := rfl
    have parent : FilePath.parent ledger.path = "." := by decide +kernel
    unfold Emitter.create
    rw [allowed]
    dsimp only
    rw [parent, made]
    rfl
  have writable : FileTree.target {} ledger.path = .ok (ledger.place, ledger.before) :=
    FileTree.target_eq_ok_iff.mpr ⟨by decide +kernel, by decide +kernel, .inl ⟨rfl, rfl⟩⟩
  have whole : HoldsLines ledger.before := .inl rfl
  have clock : now.IsClock := by
    refine ⟨⟨?_, ?_⟩, ?_, ?_, ?_, ?_, rfl⟩ <;> decide
  have saidCarried : said.IsPayload := by
    refine ⟨by decide, ?_⟩
    rintro entry member
    obtain rfl := List.mem_singleton.mp member
    exact .text
  have countedCarried : counted.IsPayload := by
    refine ⟨by decide, ?_⟩
    intro entry member
    rcases List.mem_cons.mp member with rfl | member
    · exact .int (by decide)
    · obtain rfl := List.mem_singleton.mp member
      refine .list fun item member => ?_
      obtain rfl := List.mem_singleton.mp member
      refine .map saidCarried.distinct fun entry member => ?_
      obtain rfl := List.mem_singleton.mp member
      exact .text
  have runs := ((Hub.Runs.start { emitter, files := {} }).emit 0 now .rateLimited
    (.record said)).emit 1 now .retryAttempt (.record counted)
  have data (one other : Except Failure Signal) :
      ∀ emission ∈ [(⟨now, .rateLimited, .record said, one⟩ : Emission),
        ⟨now, .retryAttempt, .record counted, other⟩], emission.IsData :=
    List.forall_mem_cons.mpr ⟨⟨clock, .inr rfl, saidCarried⟩,
      List.forall_mem_singleton.mpr ⟨clock, .inr rfl, countedCarried⟩⟩
  have few : 2 < 10 ^ Numeral.digitLimit :=
    Nat.lt_of_lt_of_le (by decide : 2 < 10 ^ 1) (Nat.pow_le_pow_right (by decide) (by decide))
  obtain ⟨outcomes, -, history, -, -, loads, -⟩ :=
    Hub.runs_agree created writable whole runs (data _ _) few
  refine ⟨created, writable, whole, _, _, runs, data _ _, outcomes, history, ?_⟩
  rw [loads, loadLedger_of_target writable]
  rfl

end Runs

end WebHarvest.Signal
