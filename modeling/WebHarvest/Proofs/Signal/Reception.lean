import WebHarvest.Proofs.Signal.Order

/-!
# Who receives a signal

While a signal is delivered its subscribers may subscribe others and end registrations. A delivery
goes through the roster that was the latest one at the emission. Ending a registration leaves this
roster as it is and begins another, but whoever subscribes before that is added to it. So a signal
reaches those who were registered at its emission, each once and in order, and then the newcomers:
the delivery is over when it has caught up with them, and it need not be over at all.
-/

set_option autoImplicit false

namespace WebHarvest

namespace Signal

section Rosters

variable {σ : Type}

/-- A change of the roster, or nothing that concerns it. -/
def Act.isQuiet : Act σ → Bool
  | .emit .. => false
  | _ => true

/-- Whom some acts subscribe before the first of them that ends a registration. -/
def newcomers : List (Act σ) → List σ
  | [] => []
  | .subscribe subscriber :: rest => subscriber :: newcomers rest
  | .unsubscribe _ :: _ => []
  | .emit .. :: rest => newcomers rest

theorem newcomers_append (acts more : List (Act σ)) :
    newcomers acts <+: newcomers (acts ++ more) := by
  induction acts with
  | nil => exact List.nil_prefix
  | cons act acts ih =>
      cases act with
      | subscribe subscriber => exact List.cons_prefix_cons.mpr ⟨rfl, ih⟩
      | unsubscribe => exact List.prefix_rfl
      | emit => exact ih

theorem newcomers_mono {acts more : List (Act σ)} (isPrefix : acts <+: more) :
    newcomers acts <+: newcomers more := by
  obtain ⟨rest, rfl⟩ := isPrefix
  exact newcomers_append acts rest

/-- The roster after an act. -/
def enact [BEq σ] (emitter : Emitter σ) : Act σ → Emitter σ
  | .subscribe subscriber => emitter.subscribe subscriber
  | .unsubscribe subscriber => emitter.unsubscribe subscriber
  | .emit .. => emitter

variable [BEq σ]

/-- A roster that is not the latest one stays as it is. -/
theorem rosterAt_of_lt {emitter : Emitter σ} {number : Nat} (past : number < emitter.rosterNumber)
    (acts : List (Act σ)) :
    (acts.foldl enact emitter).rosterAt number = emitter.rosterAt number := by
  induction acts generalizing emitter with
  | nil => rfl
  | cons act acts ih =>
      rw [List.foldl_cons]
      cases act with
      | subscribe subscriber =>
          have still : number < (emitter.subscribe subscriber).rosterNumber := past
          refine (ih still).trans ?_
          simp only [Emitter.rosterAt, Emitter.subscribe]
          rw [List.getElem?_eq_getElem past, Option.getD_some, Option.getD_some]
      | unsubscribe subscriber =>
          have later : number < (emitter.unsubscribe subscriber).rosterNumber := by
            simpa [Emitter.unsubscribe, Emitter.rosterNumber] using Nat.lt_succ_of_lt past
          refine (ih later).trans ?_
          simp only [Emitter.rosterAt, Emitter.unsubscribe, List.getElem?_append_left past]
          rw [List.getElem?_eq_getElem past, Option.getD_some, Option.getD_some]
      | emit => exact ih past

/-- The latest roster is added to until some act begins another one. -/
theorem rosterAt_enacted (emitter : Emitter σ) (acts : List (Act σ)) :
    (acts.foldl enact emitter).rosterAt emitter.rosterNumber =
      emitter.roster ++ newcomers acts := by
  have latest (emitter : Emitter σ) :
      emitter.rosterAt emitter.rosterNumber = emitter.roster := by
    rw [Emitter.rosterAt, Emitter.rosterNumber, List.getElem?_eq_none (Nat.le_refl _)]
    rfl
  induction acts generalizing emitter with
  | nil => rw [List.foldl_nil, latest, newcomers, List.append_nil]
  | cons act acts ih =>
      rw [List.foldl_cons]
      cases act with
      | subscribe subscriber =>
          refine (ih (emitter.subscribe subscriber)).trans ?_
          rw [Emitter.subscribe, newcomers, List.append_assoc, List.singleton_append]
      | unsubscribe subscriber =>
          have later : emitter.rosterNumber < (emitter.unsubscribe subscriber).rosterNumber := by
            simp [Emitter.unsubscribe, Emitter.rosterNumber]
          refine (rosterAt_of_lt later acts).trans ?_
          simp [Emitter.rosterAt, Emitter.unsubscribe, Emitter.rosterNumber, newcomers]
      | emit => exact ih emitter

end Rosters

section Receivers

variable {σ : Type}

/-- How subscribers handle signals, given all calls that there have been before. -/
abbrev Behaviour (σ : Type) := List (σ × Signal) → σ → Signal → Reaction σ

/-- How some subscribers handle a signal that is delivered to them in turn, given the calls
before. -/
def reactions (behave : Behaviour σ) (signal : Signal) (calls : List (σ × Signal)) :
    List σ → List (Reaction σ)
  | [] => []
  | subscriber :: rest =>
      behave calls subscriber signal ::
        reactions behave signal (calls ++ [(subscriber, signal)]) rest

theorem reactions_append (behave : Behaviour σ) (signal : Signal) (calls : List (σ × Signal))
    (front back : List σ) :
    reactions behave signal calls (front ++ back) = reactions behave signal calls front ++
      reactions behave signal (calls ++ front.map (·, signal)) back := by
  induction front generalizing calls with
  | nil => rw [List.map_nil, List.append_nil]; rfl
  | cons subscriber front ih =>
      rw [List.cons_append, reactions, ih, reactions, List.map_cons, List.cons_append,
        List.append_assoc, List.singleton_append]

/-- What some subscribers do while a signal is delivered to them. -/
def actsOf (behave : Behaviour σ) (signal : Signal) (calls : List (σ × Signal))
    (receivers : List σ) : List (Act σ) :=
  (reactions behave signal calls receivers).flatMap (·.acts)

/-- The reports of those of them that fail, one for each. -/
def reportsOf (behave : Behaviour σ) (signal : Signal) (calls : List (σ × Signal))
    (receivers : List σ) : List LogRecord :=
  (reactions behave signal calls receivers).filterMap fun reaction =>
    reaction.failure.map (Traffic.failureReport signal)

variable {behave : Behaviour σ} {signal : Signal} {calls : List (σ × Signal)}
variable {registered receivers : List σ}

theorem actsOf_concat (behave : Behaviour σ) (signal : Signal) (calls : List (σ × Signal))
    (receivers : List σ) (subscriber : σ) :
    actsOf behave signal calls (receivers ++ [subscriber]) = actsOf behave signal calls receivers ++
      (behave (calls ++ receivers.map (·, signal)) subscriber signal).acts := by
  rw [actsOf, reactions_append, List.flatMap_append]
  exact congrArg _ (List.append_nil _)

theorem reportsOf_concat (behave : Behaviour σ) (signal : Signal) (calls : List (σ × Signal))
    (receivers : List σ) (subscriber : σ) :
    reportsOf behave signal calls (receivers ++ [subscriber]) =
      reportsOf behave signal calls receivers ++
        ((behave (calls ++ receivers.map (·, signal)) subscriber signal).failure.map
          (Traffic.failureReport signal)).toList := by
  rw [reportsOf, reactions_append, List.filterMap_append]
  refine congrArg _ ?_
  cases failed : (behave (calls ++ receivers.map (·, signal)) subscriber signal).failure with
  | none => simp [reactions, failed]
  | some failure => simp [reactions, failed]

theorem newcomers_receivers {more : List σ} (isPrefix : receivers <+: more) :
    newcomers (actsOf behave signal calls receivers) <+:
      newcomers (actsOf behave signal calls more) := by
  obtain ⟨rest, rfl⟩ := isPrefix
  refine newcomers_mono ?_
  rw [actsOf, actsOf, reactions_append, List.flatMap_append]
  exact List.prefix_append _ _

/-- Whom a delivery may have called so far: each of them stood next in the roster as it was then. -/
inductive Reached (behave : Behaviour σ) (signal : Signal) (calls : List (σ × Signal))
    (registered : List σ) : List σ → Prop where
  | nobody : Reached behave signal calls registered []
  | next {receivers : List σ} {subscriber : σ}
      (before : Reached behave signal calls registered receivers)
      (found : (registered ++ newcomers (actsOf behave signal calls receivers))[receivers.length]? =
        some subscriber) :
      Reached behave signal calls registered (receivers ++ [subscriber])

theorem isPrefix_concat {α : Type} {front whole : List α} {last : α} (isPrefix : front <+: whole)
    (found : whole[front.length]? = some last) : front ++ [last] <+: whole := by
  obtain ⟨rest, rfl⟩ := isPrefix
  rw [List.getElem?_append_right (Nat.le_refl _), Nat.sub_self] at found
  cases rest with
  | nil => cases found
  | cons first rest =>
      obtain rfl := Option.some.inj found
      exact ⟨rest, by simp⟩

/-- Nobody but the registered and the newcomers is called, and they are called in order. -/
theorem Reached.isPrefix (reached : Reached behave signal calls registered receivers) :
    receivers <+: registered ++ newcomers (actsOf behave signal calls receivers) := by
  induction reached with
  | nobody => exact List.nil_prefix
  | @next receivers subscriber _ found ih =>
      refine (isPrefix_concat ih found).trans ?_
      exact (List.prefix_append_right_inj _).mpr (newcomers_receivers (List.prefix_append _ _))

end Receivers

section Deliveries

variable {σ : Type} [BEq σ]

/-- Advances deliveries until no more than some are under way, within a number of steps. -/
def Traffic.deliver (behave : Behaviour σ) (now : Timestamp) (depth : Nat) (traffic : Traffic σ) :
    Nat → Traffic σ
  | 0 => traffic
  | steps + 1 =>
      let ran := traffic.deliver behave now depth steps
      if ran.stack.length ≤ depth then ran else ran.step (behave ran.calls) now

/-- Deliveries that are all advanced to their end are settled. -/
theorem Traffic.deliver_settle (react : σ → Signal → Reaction σ) (now : Timestamp) (steps : Nat)
    (traffic : Traffic σ) :
    traffic.deliver (fun _ => react) now 0 steps = traffic.settle react now steps := by
  have last (steps : Nat) (traffic : Traffic σ) : traffic.settle react now (steps + 1) =
      let ran := traffic.settle react now steps
      if ran.stack.isEmpty then ran else ran.step react now := by
    induction steps generalizing traffic with
    | zero => rfl
    | succ steps ih =>
        rw [settle]
        split
        · rename_i ended
          simp only [settle, ended, if_true]
        · rename_i underWay
          rw [ih (traffic.step react now)]
          simp only [settle, underWay, Bool.false_eq_true, if_false]
  induction steps with
  | zero => rfl
  | succ steps ih =>
      rw [last, deliver, ih]
      dsimp only
      cases (traffic.settle react now steps).stack with
      | nil => rfl
      | cons => rfl

/-- A delivery under way, begun on `emitter` with what `start` held: whom it has called, and what
the last of them has still to do. -/
structure Delivering (behave : Behaviour σ) (signal : Signal) (start : Traffic σ)
    (emitter : Emitter σ) (receivers : List σ) (current : Reaction σ) (traffic : Traffic σ) :
    Prop where
  stack : traffic.stack =
    ⟨signal, emitter.rosterNumber, receivers.length, current⟩ :: start.stack
  calls : traffic.calls = start.calls ++ receivers.map (·, signal)
  reached : Reached behave signal start.calls emitter.roster receivers
  quiet : ∀ act ∈ current.acts, act.isQuiet = true
  enacted : ∃ done, traffic.emitter = done.foldl enact emitter ∧
    done ++ current.acts = actsOf behave signal start.calls receivers
  reported : traffic.reports ++ (current.failure.map (Traffic.failureReport signal)).toList =
    start.reports ++ reportsOf behave signal start.calls receivers

/-- A delivery that is over: it has called everybody in its roster, and each failure is reported. -/
structure Delivered (behave : Behaviour σ) (signal : Signal) (start : Traffic σ)
    (emitter : Emitter σ) (receivers : List σ) (traffic : Traffic σ) : Prop where
  stack : traffic.stack = start.stack
  calls : traffic.calls = start.calls ++ receivers.map (·, signal)
  reached : Reached behave signal start.calls emitter.roster receivers
  all : receivers = emitter.roster ++ newcomers (actsOf behave signal start.calls receivers)
  reported : traffic.reports =
    start.reports ++ reportsOf behave signal start.calls receivers

variable {behave : Behaviour σ} {signal : Signal} {start traffic : Traffic σ} {emitter : Emitter σ}
variable {receivers : List σ} {current : Reaction σ}

/-- What is left to do before the next subscriber is called. -/
def Reaction.size (reaction : Reaction σ) : Nat :=
  reaction.acts.length + if reaction.failure.isSome then 1 else 0

theorem Delivering.act {first : Act σ} {rest : List (Act σ)}
    (delivering : Delivering behave signal start emitter receivers current traffic)
    (acts : current.acts = first :: rest) (react : σ → Signal → Reaction σ) (now : Timestamp) :
    Delivering behave signal start emitter receivers { current with acts := rest }
      (traffic.step react now) := by
  obtain ⟨done, same, whole⟩ := delivering.enacted
  have quiet := delivering.quiet
  rw [acts] at quiet whole
  obtain ⟨quietFirst, quietRest⟩ := List.forall_mem_cons.mp quiet
  have goesOn : traffic.step react now =
      { traffic with
        emitter := enact traffic.emitter first
        stack := ⟨signal, emitter.rosterNumber, receivers.length, { current with acts := rest }⟩ ::
          start.stack } := by
    unfold Traffic.step
    rw [delivering.stack]
    dsimp only
    rw [acts]
    cases first with
    | subscribe => rfl
    | unsubscribe => rfl
    | emit => cases quietFirst
  rw [goesOn]
  refine ⟨rfl, delivering.calls, delivering.reached, quietRest, ⟨done ++ [first], ?_, ?_⟩,
    delivering.reported⟩
  · rw [List.foldl_append, ← same]
    rfl
  · rw [List.append_assoc, List.singleton_append, whole]

theorem Delivering.report {failure : Failure}
    (delivering : Delivering behave signal start emitter receivers current traffic)
    (acts : current.acts = []) (fails : current.failure = some failure)
    (react : σ → Signal → Reaction σ) (now : Timestamp) :
    Delivering behave signal start emitter receivers {} (traffic.step react now) := by
  have goesOn : traffic.step react now =
      { traffic with
        stack := ⟨signal, emitter.rosterNumber, receivers.length, {}⟩ :: start.stack
        reports := traffic.reports ++ [Traffic.failureReport signal failure] } := by
    unfold Traffic.step
    rw [delivering.stack]
    dsimp only
    rw [acts, fails]
    rfl
  obtain ⟨done, same, whole⟩ := delivering.enacted
  have reported := delivering.reported
  rw [acts] at whole
  rw [fails] at reported
  rw [goesOn]
  refine ⟨rfl, delivering.calls, delivering.reached, nofun, ⟨done, same, whole⟩, ?_⟩
  rw [← reported]
  exact List.append_nil _

/-- Without anything left to do, the next subscriber is called, if there is one. -/
theorem Delivering.proceed
    (delivering : Delivering behave signal start emitter receivers current traffic)
    (acts : current.acts = []) (calm : current.failure = none)
    (quiet : ∀ calls subscriber signal, ∀ act ∈ (behave calls subscriber signal).acts,
      act.isQuiet = true) (now : Timestamp) :
    let next := traffic.step (behave traffic.calls) now
    (∃ subscriber, Delivering behave signal start emitter (receivers ++ [subscriber])
      (behave traffic.calls subscriber signal) next) ∨
    Delivered behave signal start emitter receivers next := by
  intro next
  obtain ⟨done, same, whole⟩ := delivering.enacted
  have reported := delivering.reported
  rw [acts, List.append_nil] at whole
  rw [calm] at reported
  have roster : traffic.emitter.rosterAt emitter.rosterNumber =
      emitter.roster ++ newcomers (actsOf behave signal start.calls receivers) := by
    rw [same, rosterAt_enacted, whole]
  have steps : next = (traffic.emitter.rosterAt emitter.rosterNumber)[receivers.length]?.elim
      { traffic with stack := start.stack } fun subscriber =>
        { traffic with
          stack := ⟨signal, emitter.rosterNumber, receivers.length + 1,
            behave traffic.calls subscriber signal⟩ :: start.stack
          calls := traffic.calls ++ [(subscriber, signal)] } := by
    show traffic.step (behave traffic.calls) now = _
    unfold Traffic.step
    rw [delivering.stack]
    dsimp only
    rw [acts, calm]
    cases (traffic.emitter.rosterAt emitter.rosterNumber)[receivers.length]? <;> rfl
  rw [roster] at steps
  cases found : (emitter.roster ++ newcomers (actsOf behave signal start.calls receivers))[
      receivers.length]? with
  | none =>
      rw [found, Option.elim_none] at steps
      refine .inr ?_
      rw [steps]
      refine ⟨rfl, delivering.calls, delivering.reached, ?_, ?_⟩
      · exact delivering.reached.isPrefix.eq_of_length_le (List.getElem?_eq_none_iff.mp found)
      · exact (List.append_nil _).symm.trans reported
  | some subscriber =>
      rw [found, Option.elim_some] at steps
      refine .inl ⟨subscriber, ?_⟩
      rw [steps]
      refine ⟨?_, ?_, .next delivering.reached found, quiet _ _ _, ⟨done, same, ?_⟩, ?_⟩
      · rw [List.length_append, List.length_singleton]
      · dsimp only
        rw [delivering.calls, List.map_append, List.map_singleton, List.append_assoc]
      · rw [actsOf_concat, ← delivering.calls, whole]
      · rw [reportsOf_concat, ← delivering.calls, ← List.append_assoc, ← reported]
        rw [Option.map_none, Option.toList_none, List.append_nil]

/-- A delivery is under way or over. -/
def Stands (behave : Behaviour σ) (signal : Signal) (start : Traffic σ) (emitter : Emitter σ)
    (receivers : List σ) (traffic : Traffic σ) : Prop :=
  (∃ current, Delivering behave signal start emitter receivers current traffic) ∨
    Delivered behave signal start emitter receivers traffic

theorem Stands.calls (stands : Stands behave signal start emitter receivers traffic) :
    traffic.calls = start.calls ++ receivers.map (·, signal) := by
  obtain ⟨_, delivering⟩ | delivered := stands
  · exact delivering.calls
  · exact delivered.calls

theorem Stands.reached (stands : Stands behave signal start emitter receivers traffic) :
    Reached behave signal start.calls emitter.roster receivers := by
  obtain ⟨_, delivering⟩ | delivered := stands
  · exact delivering.reached
  · exact delivered.reached

theorem Delivering.underWay
    (delivering : Delivering behave signal start emitter receivers current traffic) :
    traffic.stack.length = start.stack.length + 1 := by
  rw [delivering.stack, List.length_cons]

theorem Stands.delivered (stands : Stands behave signal start emitter receivers traffic)
    (ended : traffic.stack = start.stack) :
    Delivered behave signal start emitter receivers traffic := by
  obtain ⟨_, delivering⟩ | delivered := stands
  · have longer := delivering.underWay
    rw [ended] at longer
    omega
  · exact delivered

/-- One step of a delivery: its last subscriber goes on, or the next one is called, or it is
over. -/
theorem Delivering.step
    (delivering : Delivering behave signal start emitter receivers current traffic)
    (quiet : ∀ calls subscriber signal, ∀ act ∈ (behave calls subscriber signal).acts,
      act.isQuiet = true) (now : Timestamp) :
    let next := traffic.step (behave traffic.calls) now
    (∃ rest, rest.size < current.size ∧
      Delivering behave signal start emitter receivers rest next) ∨
    (∃ subscriber reaction,
      Delivering behave signal start emitter (receivers ++ [subscriber]) reaction next) ∨
    Delivered behave signal start emitter receivers next := by
  intro next
  cases acts : current.acts with
  | cons first rest =>
      refine .inl ⟨_, ?_, delivering.act acts _ now⟩
      simp [Reaction.size, acts]
  | nil =>
      cases fails : current.failure with
      | some failure =>
          refine .inl ⟨_, ?_, delivering.report acts fails _ now⟩
          simp [Reaction.size, acts, fails]
      | none =>
          obtain ⟨subscriber, called⟩ | delivered := delivering.proceed acts fails quiet now
          · exact .inr (.inl ⟨subscriber, _, called⟩)
          · exact .inr (.inr delivered)

section Runs

variable (quiet : ∀ calls subscriber signal, ∀ act ∈ (behave calls subscriber signal).acts,
  act.isQuiet = true) (now : Timestamp)

include quiet

theorem Stands.succ {steps : Nat} (stands : Stands behave signal start emitter receivers
      (traffic.deliver behave now start.stack.length steps)) :
    ∃ others, receivers <+: others ∧ Stands behave signal start emitter others
      (traffic.deliver behave now start.stack.length (steps + 1)) := by
  rw [Traffic.deliver]
  obtain ⟨current, delivering⟩ | delivered := stands
  · rw [if_neg (by rw [delivering.underWay]; omega)]
    obtain ⟨rest, -, goesOn⟩ | ⟨subscriber, reaction, called⟩ | ended := delivering.step quiet now
    · exact ⟨receivers, List.prefix_rfl, .inl ⟨rest, goesOn⟩⟩
    · exact ⟨_, List.prefix_append _ _, .inl ⟨reaction, called⟩⟩
    · exact ⟨receivers, List.prefix_rfl, .inr ended⟩
  · rw [if_pos (by rw [delivered.stack])]
    exact ⟨receivers, List.prefix_rfl, .inr delivered⟩

/-- What holds when a delivery begins holds, with more receivers, after any number of steps. -/
theorem Stands.later {steps : Nat} (stands : Stands behave signal start emitter receivers
      (traffic.deliver behave now start.stack.length steps)) (more : Nat) :
    ∃ others, receivers <+: others ∧ Stands behave signal start emitter others
      (traffic.deliver behave now start.stack.length (steps + more)) := by
  induction more with
  | zero => exact ⟨receivers, List.prefix_rfl, stands⟩
  | succ more ih =>
      obtain ⟨others, longer, standsThen⟩ := ih
      obtain ⟨final, stillLonger, standsNext⟩ := standsThen.succ quiet now
      exact ⟨final, longer.trans stillLonger, standsNext⟩

/-- A delivery that always finds few newcomers comes to its end. -/
theorem Delivering.ends {bound : Nat} (bounded : ∀ steps receivers,
      Stands behave signal start emitter receivers
        (traffic.deliver behave now start.stack.length steps) →
      (newcomers (actsOf behave signal start.calls receivers)).length ≤ bound)
    {receivers : List σ} {current : Reaction σ} {steps : Nat}
    (delivering : Delivering behave signal start emitter receivers current
      (traffic.deliver behave now start.stack.length steps)) :
    ∃ steps, (traffic.deliver behave now start.stack.length steps).stack = start.stack := by
  have next : traffic.deliver behave now start.stack.length (steps + 1) =
      (traffic.deliver behave now start.stack.length steps).step
        (behave (traffic.deliver behave now start.stack.length steps).calls) now := by
    rw [Traffic.deliver, if_neg (by rw [delivering.underWay]; omega)]
  have goesOn := delivering.step quiet now
  rw [← next] at goesOn
  obtain ⟨rest, less, same⟩ | ⟨subscriber, reaction, called⟩ | ended := goesOn
  · exact same.ends bounded
  · have room : receivers.length < emitter.roster.length + bound := by
      have inRoster := called.reached.isPrefix.length_le
      have few := bounded (steps + 1) _ (.inl ⟨reaction, called⟩)
      rw [List.length_append, List.length_append, List.length_singleton] at inRoster
      omega
    exact called.ends bounded
  · exact ⟨steps + 1, ended.stack⟩
-- Either another receiver is called, of whom there are only so many, or less is left to do.
termination_by (emitter.roster.length + bound - receivers.length, current.size)
decreasing_by
  · exact Prod.Lex.right _ less
  · refine Prod.Lex.left _ _ ?_
    rw [List.length_append, List.length_singleton]
    omega

/-- A delivery that has begun stands somewhere after any number of steps. -/
theorem Delivering.stands (begins : Delivering behave signal start emitter [] {} traffic)
    (steps : Nat) : ∃ receivers, Stands behave signal start emitter receivers
      (traffic.deliver behave now start.stack.length steps) := by
  have standsFirst : Stands behave signal start emitter []
      (traffic.deliver behave now start.stack.length 0) := .inl ⟨_, begins⟩
  obtain ⟨receivers, -, later⟩ := standsFirst.later quiet now steps
  rw [Nat.zero_add] at later
  exact ⟨receivers, later⟩

end Runs

end Deliveries

end Signal

end WebHarvest
