import WebHarvest.Proofs.Signal.Interleaving

/-!
# The order in which subscribers receive signals

Tasks take turns: while a task waits for a subscriber, the others and the subscriber itself may emit
and deliver. A subscriber that is not awaited handles a signal within one turn. So later signals
overtake an earlier one exactly at the awaited subscribers, and who stands behind one of them in the
roster may receive signals out of order.
-/

set_option autoImplicit false

namespace WebHarvest

section Emission

variable {σ : Type}

theorem Emitter.sequence_of_signalOf {emitter : Emitter σ} {now : Timestamp} {kind : SignalKind}
    {payload : Value} {signal : Signal} (made : emitter.signalOf now kind payload = .ok signal) :
    signal.sequence = emitter.count + 1 := by
  unfold Emitter.signalOf at made
  dsimp only at made
  generalize (Check.record .host (if payload.isEmpty then .map [] else payload)).under
    (.name "payload") = checked at made
  cases checked <;> cases made
  rfl

/-- Lines can be added to the ledger, if there is one. -/
def Emitter.Writable (emitter : Emitter σ) (files : FileTree) : Prop :=
  ∀ path ∈ emitter.ledger, ∃ place before, files.target path = .ok (place, before)

/-- One emission changes the number and nothing else that a delivery depends on. -/
structure Emitter.Numbers (emitter after : Emitter σ) : Prop where
  count : after.count = emitter.count + 1
  earlier : after.earlier = emitter.earlier
  roster : after.roster = emitter.roster

theorem Emitter.publish_cases (emitter : Emitter σ) (files : FileTree) (now : Timestamp)
    (kind : SignalKind) (payload : Value) :
    ∃ after kept outcome, emitter.publish files now kind payload = ((after, kept), outcome) ∧
      emitter.Numbers after ∧
      ∀ signal, outcome = .ok signal → signal.sequence = emitter.count + 1 := by
  cases made : emitter.signalOf now kind payload with
  | error failure =>
      refine ⟨{ emitter with count := emitter.count + 1 }, files, .error failure, ?_,
        ⟨rfl, rfl, rfl⟩, fun _ given => by cases given⟩
      unfold Emitter.publish
      simp only [made]
  | ok signal =>
      refine ⟨_, _, _, Emitter.publish_of_signal made files, ⟨rfl, rfl, rfl⟩, fun given same => ?_⟩
      cases written : (emitter.writeLine files signal).2 with
      | error failure =>
          rw [written] at same
          cases same
      | ok =>
          rw [written] at same
          cases same
          exact sequence_of_signalOf made

theorem Emitter.fresh_of_created {source : String} {ledger : Option String} {limit : Int}
    {start files : FileTree} {emitter : Emitter σ}
    (created : Emitter.create source ledger limit start = (files, .ok emitter)) :
    emitter.count = 0 ∧ emitter.earlier = [] ∧ emitter.roster = [] := by
  rw [Emitter.eq_of_created created]
  exact ⟨rfl, rfl, rfl⟩

theorem Emitter.foldl_subscribe (emitter : Emitter σ) (subscribers : List σ) :
    subscribers.foldl Emitter.subscribe emitter =
      { emitter with roster := emitter.roster ++ subscribers } := by
  induction subscribers generalizing emitter with
  | nil => rw [List.foldl_nil, List.append_nil]
  | cons first rest ih =>
      rw [List.foldl_cons, ih]
      simp only [Emitter.subscribe, List.append_assoc, List.cons_append, List.nil_append]

end Emission

namespace Signal

section Turns

variable {σ : Type}

/-- A delivery waits for the subscriber that it has called last. -/
def Delivery.isSuspended (awaited : σ → Bool) (roster : List σ) (delivery : Delivery σ) : Bool :=
  (roster.take delivery.called).getLast?.any awaited

/-- Subscribers that are awaited may emit; the others do nothing that concerns the emitter. -/
def IsSteady (awaited : σ → Bool) (react : σ → Signal → Reaction σ) : Prop :=
  ∀ subscriber signal, ∀ act ∈ (react subscriber signal).acts,
    awaited subscriber = true ∧ ∃ kind payload, act = .emit kind payload

namespace Hub

theorem view_update (hub : Hub σ) (task : Nat) (traffic : Traffic σ) :
    (hub.update task traffic).view task = traffic := by
  simp only [view, update, Function.update_self]

theorem update_update (hub : Hub σ) (task : Nat) (earlier later : Traffic σ) :
    (hub.update task earlier).update task later = hub.update task later := by
  simp only [update, Function.update_idem]

/-- A task lets others go on when it delivers nothing, or waits for a subscriber. -/
def Waits (awaited : σ → Bool) (hub : Hub σ) (task : Nat) : Prop :=
  ∀ top ∈ (hub.deliveries task).head?,
    top.isSuspended awaited (hub.emitter.rosterAt top.roster) = true

/-- What tasks may have done to a hub of fixed subscribers by turns. A task that waits for a
subscriber emits when that subscriber does. -/
inductive Turns [BEq σ] (awaited : σ → Bool) (hub : Hub σ) : Hub σ → Prop where
  | start : Turns awaited hub hub
  | emit {mid : Hub σ} (before : Turns awaited hub mid) (task : Nat)
      (free : ∀ other, mid.Waits awaited other) (now : Timestamp) (kind : SignalKind)
      (payload : Value) :
      Turns awaited hub (mid.update task ((mid.view task).emit now kind payload).1)
  | advance {mid : Hub σ} (before : Turns awaited hub mid) (task : Nat)
      (free : ∀ other, other ≠ task → mid.Waits awaited other)
      (react : σ → Signal → Reaction σ) (steady : IsSteady awaited react) (now : Timestamp) :
      Turns awaited hub (mid.update task ((mid.view task).step react now))

end Hub

/-- The numbers of the signals that a subscriber has been called with, in the order of the calls. -/
def sequencesOf [BEq σ] (calls : List (σ × Signal)) (subscriber : σ) : List Int :=
  (calls.filter (·.1 == subscriber)).map (·.2.sequence)

def Hub.received [BEq σ] (hub : Hub σ) (subscriber : σ) : List Int :=
  sequencesOf hub.calls subscriber

/-- Only an awaited subscriber goes on, and only to emit. -/
def Delivery.IsProper (awaited : σ → Bool) (roster : List σ) (delivery : Delivery σ) : Prop :=
  ∀ act ∈ delivery.current.acts,
    delivery.isSuspended awaited roster = true ∧ ∃ kind payload, act = .emit kind payload

theorem Delivery.isSuspended_called {awaited : σ → Bool} {roster : List σ}
    (delivery : Delivery σ) {subscriber : σ} (next : roster[delivery.called]? = some subscriber)
    (current : Reaction σ) :
    Delivery.isSuspended awaited roster
      { delivery with called := delivery.called + 1, current } = awaited subscriber := by
  unfold Delivery.isSuspended
  rw [List.take_add_one, next, Option.toList_some, List.getLast?_concat, Option.any_some]

/-- A delivery that has not gone beyond subscribers none of which is awaited does not wait. -/
theorem Delivery.called_gt {awaited : σ → Bool} {front back : List σ} {s : σ}
    (plain : ∀ subscriber ∈ front, awaited subscriber = false) {delivery : Delivery σ}
    (suspended : delivery.isSuspended awaited (front ++ s :: back) = true) :
    front.length < delivery.called := by
  by_contra reached
  unfold Delivery.isSuspended at suspended
  rw [List.take_append_of_le_length (Nat.le_of_not_lt reached)] at suspended
  cases last : (front.take delivery.called).getLast? with
  | none =>
      rw [last] at suspended
      cases suspended
  | some subscriber =>
      rw [last, Option.any_some,
        plain subscriber (List.mem_of_mem_take (List.mem_of_getLast? last))] at suspended
      cases suspended

theorem position_unique {front back : List σ} {s : σ} (fresh : s ∉ front) (once : s ∉ back)
    {position : Nat} (found : (front ++ s :: back)[position]? = some s) :
    position = front.length := by
  rcases Nat.lt_trichotomy position front.length with less | same | more
  · rw [List.getElem?_append_left less] at found
    exact absurd (List.mem_of_getElem? found) fresh
  · exact same
  · obtain ⟨further, rfl⟩ := Nat.exists_eq_add_of_lt more
    rw [Nat.add_assoc, List.getElem?_append_right (Nat.le_add_right ..), Nat.add_sub_cancel_left,
      List.getElem?_cons_succ] at found
    exact absurd (List.mem_of_getElem? found) once

end Turns

section Ordered

variable {σ : Type} [BEq σ] {awaited : σ → Bool} {front back : List σ} {s : σ}

theorem sequencesOf_concat (calls : List (σ × Signal)) (subscriber s : σ) (signal : Signal) :
    sequencesOf (calls ++ [(subscriber, signal)]) s =
      sequencesOf calls s ++ if subscriber == s then [signal.sequence] else [] := by
  unfold sequencesOf
  rw [List.filter_append, List.map_append, List.filter_singleton]
  cases subscriber == s <;> rfl

/-- A subscriber has received signals in order, as one task sees it: of the deliveries of the task
only the topmost may not have reached the subscriber, and what it delivers is then the latest
signal. -/
structure Traffic.InOrder (awaited : σ → Bool) (front : List σ) (s : σ) (back : List σ)
    (traffic : Traffic σ) : Prop where
  earlier : traffic.emitter.earlier = []
  roster : traffic.emitter.roster = front ++ s :: back
  sorted : (sequencesOf traffic.calls s).Pairwise (· < ·)
  counted : ∀ number ∈ sequencesOf traffic.calls s, number ≤ traffic.emitter.count
  proper : ∀ delivery ∈ traffic.stack, delivery.IsProper awaited (front ++ s :: back)
  below : ∀ delivery ∈ traffic.stack.tail, front.length < delivery.called
  top : ∀ delivery ∈ traffic.stack.head?, delivery.called ≤ front.length →
    delivery.signal.sequence = traffic.emitter.count ∧
      ∀ number ∈ sequencesOf traffic.calls s, number < traffic.emitter.count

namespace Traffic

variable {traffic : Traffic σ}

theorem InOrder.rosterAt (ordered : traffic.InOrder awaited front s back) (number : Nat) :
    traffic.emitter.rosterAt number = front ++ s :: back := by
  unfold Emitter.rosterAt
  rw [ordered.earlier, ordered.roster]
  rfl

/-- Every delivery of the task has reached the subscriber. -/
def IsPast (front : List σ) (traffic : Traffic σ) : Prop :=
  ∀ delivery ∈ traffic.stack, front.length < delivery.called

theorem InOrder.isPast (ordered : traffic.InOrder awaited front s back)
    (top : ∀ delivery ∈ traffic.stack.head?, front.length < delivery.called) :
    traffic.IsPast front := by
  intro delivery member
  cases stack : traffic.stack with
  | nil =>
      rw [stack] at member
      cases member
  | cons first rest =>
      rw [stack] at member
      rcases List.mem_cons.mp member with rfl | member
      · exact top _ (by rw [stack]; rfl)
      · exact ordered.below _ (by rw [stack]; exact member)

/-- An emission after which nothing but its own delivery is behind. -/
theorem InOrder.emit (ordered : traffic.InOrder awaited front s back)
    (past : traffic.IsPast front) (now : Timestamp) (kind : SignalKind) (payload : Value) :
    (traffic.emit now kind payload).1.InOrder awaited front s back := by
  obtain ⟨after, kept, outcome, published, numbers, numbered⟩ :=
    traffic.emitter.publish_cases traffic.files now kind payload
  have counted : ∀ number ∈ sequencesOf traffic.calls s, number < (after.count : Int) := by
    intro number member
    have := ordered.counted number member
    rw [numbers.count]
    omega
  have earlier := numbers.earlier.trans ordered.earlier
  have roster := numbers.roster.trans ordered.roster
  unfold Traffic.emit
  rw [published]
  cases outcome with
  | error failure =>
      exact ⟨earlier, roster, ordered.sorted, fun number member => (counted number member).le,
        ordered.proper, ordered.below, fun delivery member behind =>
          absurd (past delivery (List.mem_of_mem_head? member)) (Nat.not_lt.mpr behind)⟩
  | ok signal =>
      refine ⟨earlier, roster, ordered.sorted, fun number member => (counted number member).le,
        ?_, past, ?_⟩
      · rintro delivery (_ | ⟨_, member⟩)
        · exact fun act member => by cases member
        · exact ordered.proper delivery member
      · rintro delivery ⟨⟩ -
        refine ⟨?_, counted⟩
        rw [numbered signal rfl]
        exact congrArg Nat.cast numbers.count.symm

theorem InOrder.of_past (ordered : traffic.InOrder awaited front s back) {after : Traffic σ}
    (emitter : after.emitter = traffic.emitter) (calls : after.calls = traffic.calls)
    (past : after.IsPast front)
    (proper : ∀ delivery ∈ after.stack, delivery.IsProper awaited (front ++ s :: back)) :
    after.InOrder awaited front s back := by
  refine ⟨?_, ?_, ?_, ?_, proper,
    fun delivery member => past delivery (List.mem_of_mem_tail member),
    fun delivery member behind =>
      absurd (past delivery (List.mem_of_mem_head? member)) (Nat.not_lt.mpr behind)⟩
  · rw [emitter, ordered.earlier]
  · rw [emitter, ordered.roster]
  · rw [calls]
    exact ordered.sorted
  · rw [calls, emitter]
    exact ordered.counted

/-- An awaited subscriber that has been called goes on with an emission. -/
theorem InOrder.act (plain : ∀ subscriber ∈ front, awaited subscriber = false)
    (ordered : traffic.InOrder awaited front s back) {top : Delivery σ} {below : List (Delivery σ)}
    (stack : traffic.stack = top :: below) {first : Act σ} {rest : List (Act σ)}
    (acts : top.current.acts = first :: rest) (now : Timestamp) :
    (traffic.act now top below first rest).InOrder awaited front s back := by
  have proper := ordered.proper
  have behind := ordered.below
  rw [stack] at proper behind
  obtain ⟨properTop, properBelow⟩ := List.forall_mem_cons.mp proper
  obtain ⟨suspended, kind, payload, rfl⟩ := properTop first (by rw [acts]; exact List.mem_cons_self)
  have reached := Delivery.called_gt plain suspended
  have replaced {before : Traffic σ} (ordered : before.InOrder awaited front s back)
      (current : Reaction σ) (fewer : ∀ act ∈ current.acts, act ∈ top.current.acts) :
      (before.withTop { top with current } below).InOrder awaited front s back :=
    ordered.of_past rfl rfl (List.forall_mem_cons.mpr ⟨reached, behind⟩)
      (List.forall_mem_cons.mpr ⟨fun act member => properTop act (fewer act member), properBelow⟩)
  have going := replaced ordered { top.current with acts := rest }
    fun act member => by rw [acts]; exact List.mem_cons_of_mem _ member
  have emitted := going.emit (List.forall_mem_cons.mpr ⟨reached, behind⟩) now kind payload
  unfold Traffic.act
  dsimp only
  split
  · rename_i after signal same
    rw [same] at emitted
    exact emitted
  · rename_i refused failure same
    rw [same] at emitted
    exact replaced emitted _ fun act member => by cases member

/-- The next subscriber is called. If it is the one in question, the signal is the latest. -/
theorem InOrder.call [LawfulBEq σ] (fresh : s ∉ front) (once : s ∉ back)
    (ordered : traffic.InOrder awaited front s back) {top : Delivery σ} {below : List (Delivery σ)}
    (stack : traffic.stack = top :: below) {subscriber : σ}
    (next : (front ++ s :: back)[top.called]? = some subscriber)
    {react : σ → Signal → Reaction σ} (steady : IsSteady awaited react) :
    Traffic.InOrder awaited front s back
      { traffic.withTop
          { top with called := top.called + 1, current := react subscriber top.signal } below with
        calls := traffic.calls ++ [(subscriber, top.signal)] } := by
  have proper := ordered.proper
  have behind := ordered.below
  have latest := ordered.top top (by rw [stack]; rfl)
  rw [stack] at proper behind
  have properAfter : ∀ delivery ∈
      { top with called := top.called + 1, current := react subscriber top.signal } :: below,
      delivery.IsProper awaited (front ++ s :: back) := by
    refine List.forall_mem_cons.mpr ⟨fun act member => ?_, (List.forall_mem_cons.mp proper).2⟩
    rw [Delivery.isSuspended_called top next]
    exact steady subscriber top.signal act member
  have numbers := sequencesOf_concat traffic.calls subscriber s top.signal
  cases same : subscriber == s with
  | false =>
      rw [same, if_neg Bool.false_ne_true, List.append_nil] at numbers
      refine ⟨ordered.earlier, ordered.roster, ?_, ?_, properAfter, behind, ?_⟩
      · rw [numbers]
        exact ordered.sorted
      · rw [numbers]
        exact ordered.counted
      · rintro delivery ⟨⟩ unreached
        rw [numbers]
        exact latest (Nat.le_of_succ_le unreached)
  | true =>
      rw [same, if_pos rfl] at numbers
      obtain rfl := eq_of_beq same
      have position := position_unique fresh once next
      obtain ⟨sequence, greater⟩ := latest position.le
      refine ⟨ordered.earlier, ordered.roster, ?_, ?_, properAfter, behind, ?_⟩
      · rw [numbers]
        refine List.pairwise_append.mpr ⟨ordered.sorted, List.pairwise_singleton .., ?_⟩
        rintro number member _ (_ | ⟨_, ⟨⟩⟩)
        rw [sequence]
        exact greater number member
      · rw [numbers]
        refine List.forall_mem_append.mpr ⟨ordered.counted, List.forall_mem_singleton.mpr ?_⟩
        exact sequence.le
      · rintro delivery ⟨⟩ unreached
        exact absurd unreached (Nat.not_le.mpr (position ▸ Nat.lt_succ_self _))

theorem InOrder.step [LawfulBEq σ] (plain : ∀ subscriber ∈ front, awaited subscriber = false)
    (fresh : s ∉ front) (once : s ∉ back) (ordered : traffic.InOrder awaited front s back)
    {react : σ → Signal → Reaction σ} (steady : IsSteady awaited react) (now : Timestamp) :
    (traffic.step react now).InOrder awaited front s back := by
  unfold Traffic.step
  split
  · exact ordered
  · rename_i top below stack
    have proper := ordered.proper
    have behind := ordered.below
    have latest := ordered.top top (by rw [stack]; rfl)
    rw [stack] at proper behind
    obtain ⟨properTop, properBelow⟩ := List.forall_mem_cons.mp proper
    split
    · rename_i first rest acts
      exact ordered.act plain stack acts now
    · refine ⟨ordered.earlier, ordered.roster, ordered.sorted, ordered.counted,
        List.forall_mem_cons.mpr ⟨fun act member => (by cases member), properBelow⟩, behind, ?_⟩
      rintro delivery ⟨⟩
      exact latest
    · split
      · exact ordered.of_past rfl rfl behind properBelow
      · rename_i subscriber next
        rw [ordered.rosterAt] at next
        exact ordered.call fresh once stack next steady

end Traffic

namespace Hub

/-- A subscriber has received signals in order, and only the deliveries of one task may not have
reached it. -/
structure InOrder (awaited : σ → Bool) (front : List σ) (s : σ) (back : List σ) (hub : Hub σ)
    (leader : Nat) : Prop where
  led : (hub.view leader).InOrder awaited front s back
  others : ∀ other, other ≠ leader → ∀ delivery ∈ hub.deliveries other,
    front.length < delivery.called ∧ delivery.IsProper awaited (front ++ s :: back)

variable {hub : Hub σ} {leader : Nat}

theorem InOrder.start (idle : ∀ task, hub.deliveries task = []) (uncalled : hub.calls = [])
    (earlier : hub.emitter.earlier = []) (roster : hub.emitter.roster = front ++ s :: back) :
    hub.InOrder awaited front s back leader := by
  have received : sequencesOf hub.calls s = [] := by
    rw [uncalled]
    rfl
  have none (task : Nat) (delivery : Delivery σ) : delivery ∉ hub.deliveries task := by
    rw [idle]
    exact List.not_mem_nil
  have led : (hub.view leader).InOrder awaited front s back :=
    { earlier, roster
      sorted := received ▸ .nil
      counted := fun number member => absurd (received ▸ member) List.not_mem_nil
      proper := fun delivery member => absurd member (none leader delivery)
      below := fun delivery member =>
        absurd (List.mem_of_mem_tail member) (none leader delivery)
      top := fun delivery member =>
        absurd (List.mem_of_mem_head? member) (none leader delivery) }
  exact ⟨led, fun other _ delivery member => absurd member (none other delivery)⟩

theorem InOrder.isPast (plain : ∀ subscriber ∈ front, awaited subscriber = false)
    (ordered : hub.InOrder awaited front s back leader) (waits : hub.Waits awaited leader) :
    (hub.view leader).IsPast front := by
  refine ordered.led.isPast fun top isTop => ?_
  have suspended := waits top isTop
  rw [show hub.emitter.rosterAt top.roster = front ++ s :: back from
    ordered.led.rosterAt top.roster] at suspended
  exact Delivery.called_gt plain suspended

/-- The task whose turn it is leads. -/
theorem InOrder.lead (plain : ∀ subscriber ∈ front, awaited subscriber = false)
    (ordered : hub.InOrder awaited front s back leader) (task : Nat)
    (free : ∀ other, other ≠ task → hub.Waits awaited other) :
    hub.InOrder awaited front s back task := by
  by_cases same : leader = task
  · exact same ▸ ordered
  · have past := ordered.isPast plain (free leader same)
    refine ⟨ordered.led.of_past rfl rfl
      (fun delivery member => (ordered.others task (Ne.symm same) delivery member).1)
      (fun delivery member => (ordered.others task (Ne.symm same) delivery member).2), ?_⟩
    intro other different delivery member
    by_cases led : other = leader
    · subst led
      exact ⟨past delivery member, ordered.led.proper delivery member⟩
    · exact ordered.others other led delivery member

theorem InOrder.update (ordered : hub.InOrder awaited front s back leader) {traffic : Traffic σ}
    (led : traffic.InOrder awaited front s back) :
    (hub.update leader traffic).InOrder awaited front s back leader := by
  refine ⟨(hub.view_update leader traffic).symm ▸ led, fun other different => ?_⟩
  rw [show (hub.update leader traffic).deliveries other = hub.deliveries other from
    Function.update_of_ne different ..]
  exact ordered.others other different

theorem Turns.inOrder [LawfulBEq σ] (plain : ∀ subscriber ∈ front, awaited subscriber = false)
    (fresh : s ∉ front) (once : s ∉ back) {after : Hub σ} (turns : hub.Turns awaited after)
    (ordered : hub.InOrder awaited front s back leader) :
    ∃ leader, after.InOrder awaited front s back leader := by
  induction turns with
  | start => exact ⟨leader, ordered⟩
  | emit before task free now kind payload ih =>
      obtain ⟨leader, ordered⟩ := ih
      have led := ordered.lead plain task fun other _ => free other
      exact ⟨task, led.update (led.led.emit (led.isPast plain (free task)) now kind payload)⟩
  | advance before task free react steady now ih =>
      obtain ⟨leader, ordered⟩ := ih
      have led := ordered.lead plain task free
      exact ⟨task, led.update (led.led.step plain fresh once steady now)⟩

end Hub

end Ordered

section Overtaking

variable {σ : Type}

theorem Emitter.publish_writable {emitter : Emitter σ} {files : FileTree}
    (writable : emitter.Writable files) {emission : Emission} (data : emission.IsData)
    (few : emitter.count + 1 < 10 ^ Numeral.digitLimit) :
    let signal := emission.signal emitter.source (emitter.count + 1)
    ∃ kept, emitter.publish files emission.time emission.kind emission.payload =
        ((emitter.retain signal, kept), .ok signal) ∧
      (emitter.retain signal).Writable kept := by
  intro signal
  have recordable : signal.IsRecordable :=
    ⟨Numeral.length_toString_le (by decide) few, data.clock, data.carried⟩
  obtain ⟨line, isLine⟩ := recordable.line
  rw [Emitter.publish_of_signal (signalOf_data emitter data)]
  cases ledger : emitter.ledger with
  | none =>
      refine ⟨files, ?_, writable⟩
      unfold Emitter.writeLine
      rw [ledger]
      rfl
  | some path =>
      obtain ⟨place, before, reached⟩ := writable path ledger
      obtain ⟨kept, written, held, -⟩ := Emitter.writeLine_of_target ledger reached isLine.written
      refine ⟨kept, ?_, fun other same => ?_⟩
      · rw [written]
        rfl
      · obtain rfl : path = other := Option.some.inj (ledger.symm.trans same)
        exact ⟨place, _, held⟩

theorem Hub.waits_of_idle {awaited : σ → Bool} {hub : Hub σ}
    (idle : ∀ task, hub.deliveries task = []) (traffic : Traffic σ) {other : Nat}
    (different : other ≠ 0) : (hub.update 0 traffic).Waits awaited other := by
  unfold Waits
  rw [show (hub.update 0 traffic).deliveries other = hub.deliveries other from
    Function.update_of_ne different .., idle other]
  exact fun top isTop => by cases isTop

variable [BEq σ] {awaited : σ → Bool} {hub : Hub σ}

theorem mem_sequencesOf [LawfulBEq σ] {calls : List (σ × Signal)} {s : σ} {signal : Signal}
    (called : (s, signal) ∈ calls) : signal.sequence ∈ sequencesOf calls s :=
  List.mem_map.mpr ⟨(s, signal), List.mem_filter.mpr ⟨called, beq_self_eq_true s⟩, rfl⟩

theorem sequencesOf_append (calls more : List (σ × Signal)) (s : σ) :
    sequencesOf (calls ++ more) s = sequencesOf calls s ++ sequencesOf more s := by
  unfold sequencesOf
  rw [List.filter_append, List.map_append]

/-- What a hub in which nothing is under way comes to when only its first task takes turns. -/
def Hub.Alone (awaited : σ → Bool) (hub : Hub σ) (emitter : Emitter σ) (stack : List (Delivery σ))
    (calls : List (σ × Signal)) : Prop :=
  ∃ traffic : Traffic σ, hub.Turns awaited (hub.update 0 traffic) ∧ traffic.emitter = emitter ∧
    emitter.Writable traffic.files ∧ traffic.stack = stack ∧ traffic.calls = calls

namespace Hub.Alone

variable {emitter : Emitter σ} {stack : List (Delivery σ)} {calls : List (σ × Signal)}

theorem start (awaited : σ → Bool) (idle : ∀ task, hub.deliveries task = [])
    (writable : hub.emitter.Writable hub.files) :
    hub.Alone awaited hub.emitter [] hub.calls := by
  refine ⟨hub.view 0, ?_, rfl, writable, idle 0, rfl⟩
  rw [show hub.update 0 (hub.view 0) = hub by simp [Hub.update, view]]
  exact .start

/-- An emission of no data is recorded. -/
theorem emit (idle : ∀ task, hub.deliveries task = [])
    (alone : hub.Alone awaited emitter stack calls)
    (waits : ∀ top ∈ stack.head?, top.isSuspended awaited (emitter.rosterAt top.roster) = true)
    (few : emitter.count + 1 < 10 ^ Numeral.digitLimit) :
    ∃ signal : Signal, signal.sequence = (emitter.count : Int) + 1 ∧
      hub.Alone awaited (emitter.retain signal)
        ({ signal, roster := emitter.rosterNumber } :: stack) calls := by
  obtain ⟨traffic, turns, rfl, writable, rfl, rfl⟩ := alone
  let now : Timestamp := { date := ⟨2024, 2, 29⟩, offset := some 0 }
  let emission : Emission := ⟨now, .rateLimited, .null, .error (.value "")⟩
  have clock : now.IsClock := by
    refine ⟨⟨?_, ?_⟩, ?_, ?_, ?_, ?_, rfl⟩ <;> decide
  have data : emission.IsData :=
    ⟨clock, .inl rfl, ⟨List.nodup_nil, fun entry member => by cases member⟩⟩
  obtain ⟨kept, published, writableAfter⟩ := Emitter.publish_writable writable data few
  have free (other : Nat) : (hub.update 0 traffic).Waits awaited other := by
    by_cases same : other = 0
    · subst same
      unfold Waits
      rw [show (hub.update 0 traffic).deliveries 0 = traffic.stack from
        congrArg Traffic.stack (hub.view_update 0 traffic)]
      exact waits
    · exact waits_of_idle idle traffic same
  have emitted := turns.emit 0 free now .rateLimited .null
  rw [view_update, update_update] at emitted
  unfold Traffic.emit at emitted
  dsimp only [emission] at published
  rw [published] at emitted
  exact ⟨_, rfl, _, emitted, rfl, writableAfter, rfl, rfl⟩

variable {signal : Signal} {number called : Nat} {below : List (Delivery σ)}

theorem step (idle : ∀ task, hub.deliveries task = [])
    (alone : hub.Alone awaited emitter ({ signal, roster := number, called } :: below) calls) :
    hub.Alone awaited emitter
      (match (emitter.rosterAt number)[called]? with
        | none => below
        | some _ => { signal, roster := number, called := called + 1 } :: below)
      (calls ++ ((emitter.rosterAt number)[called]?.map (·, signal)).toList) := by
  obtain ⟨traffic, turns, rfl, writable, stack, rfl⟩ := alone
  have stepped := turns.advance 0 (fun other => waits_of_idle idle traffic)
    (fun _ _ => {}) (fun subscriber signal act member => by cases member) { date := ⟨2024, 2, 29⟩ }
  rw [view_update, update_update] at stepped
  unfold Traffic.step at stepped
  rw [stack] at stepped
  dsimp only at stepped
  refine ⟨_, stepped, ?_⟩
  cases (traffic.emitter.rosterAt number)[called]? with
  | none => exact ⟨rfl, writable, rfl, (List.append_nil _).symm⟩
  | some subscriber => exact ⟨rfl, writable, rfl, rfl⟩

/-- The topmost delivery calls some more subscribers. -/
theorem calls_more (idle : ∀ task, hub.deliveries task = [])
    (alone : hub.Alone awaited emitter ({ signal, roster := number, called } :: below) calls)
    (more : Nat) (enough : called + more ≤ (emitter.rosterAt number).length) :
    hub.Alone awaited emitter ({ signal, roster := number, called := called + more } :: below)
      (calls ++ (((emitter.rosterAt number).drop called).take more).map (·, signal)) := by
  induction more with
  | zero =>
      rw [List.take_zero, List.map_nil, List.append_nil]
      exact alone
  | succ more ih =>
      have called := (ih (by omega)).step idle
      rw [List.getElem?_eq_getElem (by omega)] at called
      rw [List.take_add_one, List.getElem?_drop, List.getElem?_eq_getElem (by omega),
        List.map_append, ← List.append_assoc]
      exact called

/-- The topmost delivery calls all subscribers and is over. -/
theorem calls_all (idle : ∀ task, hub.deliveries task = [])
    (alone : hub.Alone awaited emitter ({ signal, roster := number } :: below) calls) :
    hub.Alone awaited emitter below
      (calls ++ (emitter.rosterAt number).map (·, signal)) := by
  have called := alone.calls_more idle (emitter.rosterAt number).length (by rw [Nat.zero_add])
  rw [List.drop_zero, List.take_length, Nat.zero_add] at called
  have stepped := called.step idle
  rw [List.getElem?_eq_none (Nat.le_refl _)] at stepped
  rwa [Option.map_none, Option.toList_none, List.append_nil] at stepped

end Hub.Alone

/-- While an awaited subscriber handles a signal it emits another one, which a subscriber behind it
receives first. -/
theorem Hub.overtaken [LawfulBEq σ] {first second back : List σ} {other s : σ}
    (idle : ∀ task, hub.deliveries task = []) (earlier : hub.emitter.earlier = [])
    (roster : hub.emitter.roster = first ++ other :: (second ++ s :: back))
    (isAwaited : awaited other = true) (writable : hub.emitter.Writable hub.files)
    (few : hub.emitter.count + 2 < 10 ^ Numeral.digitLimit) :
    ∃ after, hub.Turns awaited after ∧ ¬ (after.received s).Pairwise (· < ·) := by
  have rosterAt (number : Nat) : hub.emitter.rosterAt number =
      first ++ other :: (second ++ s :: back) := by
    unfold Emitter.rosterAt
    rw [earlier, roster]
    rfl
  obtain ⟨outer, outerNumber, begun⟩ := (Alone.start awaited idle writable).emit idle
    (fun top isTop => by cases isTop) (Nat.lt_of_succ_lt few)
  have outerRoster : (hub.emitter.retain outer).rosterAt hub.emitter.rosterNumber =
    first ++ other :: (second ++ s :: back) := rosterAt _
  have reached := begun.calls_more idle (first.length + 1) (by rw [outerRoster]; simp)
  obtain ⟨inner, innerNumber, nested⟩ := reached.emit idle (by
    rintro top ⟨⟩
    have next : (first ++ other :: (second ++ s :: back))[0 + first.length]? = some other := by
      rw [Nat.zero_add, List.getElem?_append_right (Nat.le_refl _), Nat.sub_self]
      rfl
    rw [outerRoster]
    exact (Delivery.isSuspended_called { signal := outer, roster := 0, called := 0 + first.length }
      next {}).trans isAwaited) few
  have innerRoster (number : Nat) : ((hub.emitter.retain outer).retain inner).rosterAt number =
    first ++ other :: (second ++ s :: back) := rosterAt number
  have resumed := (nested.calls_all idle).calls_more idle (second.length + 1) (by
    rw [innerRoster]
    simp
    omega)
  obtain ⟨traffic, turns, -, -, -, calls⟩ := resumed
  refine ⟨_, turns, fun sorted => ?_⟩
  change (sequencesOf traffic.calls s).Pairwise (· < ·) at sorted
  rw [calls, innerRoster, innerRoster, sequencesOf_append, sequencesOf_append] at sorted
  have behind : ((first ++ other :: (second ++ s :: back)).drop (0 + (first.length + 1))).take
      (second.length + 1) = second ++ [s] := by
    rw [Nat.zero_add, ← List.drop_drop, List.drop_left, List.drop_one, List.tail_cons,
      List.append_cons, List.take_left' (by simp)]
  have innerCalled : (s, inner) ∈ (first ++ other :: (second ++ s :: back)).map (·, inner) := by
    simp
  have outerCalled : (s, outer) ∈ (second ++ [s]).map (·, outer) := by simp
  rw [behind] at sorted
  have less := (List.pairwise_append.mp sorted).2.2 _
    (List.mem_append_right _ (mem_sequencesOf innerCalled)) _ (mem_sequencesOf outerCalled)
  have counted : (hub.emitter.retain outer).count = hub.emitter.count + 1 := rfl
  omega

/-- On a new emitter with some subscribers, each of which has subscribed once, a subscriber receives
the signals in the order of their numbers, whatever turns are taken, exactly if no subscriber that
stands before it is awaited. -/
theorem Hub.received_in_order_iff [LawfulBEq σ] {source : String} {ledger : Option String}
    {limit : Int} {start files : FileTree} {emitter : Emitter σ} {front back : List σ} {s : σ}
    (created : Emitter.create source ledger limit start = (files, .ok emitter))
    (writable : emitter.Writable files) (distinct : (front ++ s :: back).Nodup)
    (awaited : σ → Bool) :
    let hub : Hub σ := { emitter := (front ++ s :: back).foldl Emitter.subscribe emitter, files }
    (∀ after, hub.Turns awaited after → (after.received s).Pairwise (· < ·)) ↔
      ∀ other ∈ front, awaited other = false := by
  intro hub
  obtain ⟨count, earlier, roster⟩ := Emitter.fresh_of_created created
  have subscribed : hub.emitter = { emitter with roster := front ++ s :: back } := by
    rw [show hub.emitter = (front ++ s :: back).foldl Emitter.subscribe emitter from rfl,
      Emitter.foldl_subscribe, roster, List.nil_append]
  have idle (task : Nat) : hub.deliveries task = [] := rfl
  constructor
  · intro ordered other member
    by_contra isAwaited
    obtain ⟨first, second, rfl⟩ := List.append_of_mem member
    have few : 2 < 10 ^ Numeral.digitLimit :=
      Nat.lt_of_lt_of_le (by decide : 2 < 10 ^ 1) (Nat.pow_le_pow_right (by decide) (by decide))
    have through : hub.emitter.roster = first ++ other :: (second ++ s :: back) := by
      rw [subscribed, List.append_assoc, List.cons_append]
    obtain ⟨after, turns, unordered⟩ := Hub.overtaken idle (by rw [subscribed, earlier]) through
      (Bool.eq_true_of_not_eq_false isAwaited) (by rw [subscribed]; exact writable)
      (by rw [subscribed, count]; exact few)
    exact unordered (ordered after turns)
  · intro plain after turns
    obtain ⟨unseen, tail, disjoint⟩ := List.nodup_append.mp distinct
    have fresh : s ∉ front := fun member => disjoint s member s List.mem_cons_self rfl
    have once : s ∉ back := (List.nodup_cons.mp tail).1
    have ordered : hub.InOrder awaited front s back 0 :=
      .start idle rfl (by rw [subscribed, earlier]) (by rw [subscribed])
    obtain ⟨leader, orderedAfter⟩ := turns.inOrder plain fresh once ordered
    exact orderedAfter.led.sorted

/-- Of two subscribers the first is awaited: it receives in order, and the second may not. -/
theorem Hub.received_in_order_iff_two :
    let emitter : Emitter String := { source := "s", ledger := some "ledger", limit := 1 }
    let hub : Hub String := { emitter := ["a", "b"].foldl Emitter.subscribe emitter, files := {} }
    Emitter.create "s" (some "ledger") 1 {} = ({}, .ok emitter) ∧ emitter.Writable {} ∧
    ["a", "b"].Nodup ∧
    (∀ after, hub.Turns (· == "a") after → (after.received "a").Pairwise (· < ·)) ∧
    ∃ after, hub.Turns (· == "a") after ∧ ¬ (after.received "b").Pairwise (· < ·) := by
  intro emitter hub
  have made : FileTree.makeDirectories {} "." = ({}, .ok ()) :=
    FileTree.makeDirectories_of_present (by decide +kernel) (by decide +kernel)
      (by decide +kernel : FileTree.locate {} "." = .ok []) rfl
  have created : Emitter.create "s" (some "ledger") 1 {} = ({}, .ok emitter) := by
    unfold Emitter.create
    rw [show Emitter.limitOf 1 = .ok 1 from rfl]
    dsimp only
    rw [(by decide +kernel : FilePath.parent "ledger" = "."), made]
    rfl
  have writable : emitter.Writable {} := by
    rintro path ⟨⟩
    exact ⟨["ledger"], "",
      FileTree.target_eq_ok_iff.mpr ⟨by decide +kernel, by decide +kernel, .inl ⟨rfl, rfl⟩⟩⟩
  have ofFirst : ([] ++ "a" :: ["b"]).Nodup := by decide
  have ofSecond : (["a"] ++ "b" :: []).Nodup := by decide
  refine ⟨created, writable, ofFirst, ?_, ?_⟩
  · exact (received_in_order_iff created writable ofFirst (· == "a")).mpr
      fun other member => by cases member
  · have unordered := mt (received_in_order_iff created writable ofSecond (· == "a")).mp
      fun plain => by
        have := plain "a" (List.mem_singleton_self _)
        cases this
    obtain ⟨after, failed⟩ := not_forall.mp unordered
    exact ⟨after, Classical.not_imp.mp failed⟩

end Overtaking

end Signal

end WebHarvest
