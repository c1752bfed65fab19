import Mathlib.Data.List.Nodup
import WebHarvest.Proofs.Program.Service

/-!
# Programs that run together to their ends

Programs around operations that a host serves all end, in whatever order their wake-ups come. Each
wake-up either brings a program nearer to its end, or leaves everything as it was but for one
program that has to come back for its slot, and that cannot go on longer than until the limiter has
to give way.
-/

set_option autoImplicit false

namespace WebHarvest

variable {σ α : Type}

/-- What a schedule of programs is when some of them sleep and the others have ended: the program
with number `task` is around the operation `names task`, and those that have ended have good
results. `crew` has the sleepers, each with more requests than it will still make; `awake` are the
programs that are about to go on; `origin` is what all operations came to at the start. -/
structure Underway (view : HostView σ) (names : Nat → String) (good : Nat → α → Prop)
    (origin : String → Attempts) (started : Nat) (awake : List Nat)
    (crew : List (Sleeper σ α × Nat)) (schedule : Schedule σ α) : Prop where
  ready : view.Ready schedule.state
  isOpen : (view.limiter schedule.state).IsOpen
  alone : schedule.strays = []
  sleepers : schedule.sleepers = crew.map (·.1)
  numbered : (schedule.sleepers.map (·.registration)).Nodup
  below : ∀ sleeper ∈ schedule.sleepers, sleeper.registration < schedule.registered
  waits : ∀ member ∈ crew, view.Waits (names member.1.task) (good member.1.task) member.2
    (view.attempts schedule.state (names member.1.task)) member.1.wakeUp
  ended : ∀ entry ∈ schedule.finished, good entry.1 entry.2
  tasks : (awake ++ (schedule.finished.map (·.1) ++ schedule.sleepers.map (·.task))).Perm
    (List.range started)
  kept : ∀ name, (∀ task < started, names task = name → (origin name).Steady) →
    view.attempts schedule.state name = origin name

/-- Programs around one operation cannot be told apart by the host. -/
def Apart (names : Nat → String) (origin : String → Attempts) (count : Nat) : Prop :=
  ∀ first < count, ∀ second < count, first ≠ second → names first = names second →
    (origin (names first)).Steady

theorem Apart.within {names : Nat → String} {origin : String → Attempts} {count fewer : Nat}
    (apart : Apart names origin count) (less : fewer ≤ count) : Apart names origin fewer :=
  fun first isFirst second isSecond =>
    apart first (isFirst.trans_le less) second (isSecond.trans_le less)

/-- How many requests are left at most. -/
def effort (crew : List (Sleeper σ α × Nat)) : Nat := (crew.map (·.2)).sum

/-- How much earlier than a time the sleepers wake up, altogether. -/
def patience (time : Int) (crew : List (Sleeper σ α × Nat)) : Nat :=
  (crew.map fun member => (time - member.1.wake).toNat).sum

section Sums

variable (before after : List (Sleeper σ α × Nat)) (sleeper : Sleeper σ α) (cost : Nat)

theorem effort_middle :
    effort (before ++ (sleeper, cost) :: after) = effort (before ++ after) + cost := by
  simp only [effort, List.map_append, List.map_cons, List.sum_append, List.sum_cons]
  omega

theorem effort_concat : effort (before ++ [(sleeper, cost)]) = effort before + cost := by
  rw [effort_middle, List.append_nil]

theorem patience_middle (time : Int) :
    patience time (before ++ (sleeper, cost) :: after) =
      patience time (before ++ after) + (time - sleeper.wake).toNat := by
  simp only [patience, List.map_append, List.map_cons, List.sum_append, List.sum_cons]
  omega

theorem patience_concat (time : Int) :
    patience time (before ++ [(sleeper, cost)]) =
      patience time before + (time - sleeper.wake).toNat := by
  rw [patience_middle, List.append_nil]

end Sums

namespace Underway

variable {host : Host σ} {view : HostView σ} {names : Nat → String} {good : Nat → α → Prop}
variable {origin : String → Attempts} {started task : Nat} {crew : List (Sleeper σ α × Nat)}
variable {schedule : Schedule σ α}

theorem awake_lt (underway : Underway view names good origin started [task] crew schedule) :
    task < started :=
  List.mem_range.mp (underway.tasks.mem_iff.mp List.mem_cons_self)

/-- While one program runs, what the others are to come to stays as it is. -/
theorem moved (underway : Underway view names good origin started [task] crew schedule)
    (apart : Apart names origin started) {next : σ}
    (moved : view.Moved (names task) schedule.state next) :
    Underway view names good origin started [task] crew { schedule with state := next } := by
  have own := underway.awake_lt
  have distinct := underway.tasks.nodup_iff.mpr List.nodup_range
  rw [List.singleton_append, List.nodup_cons, List.mem_append, not_or] at distinct
  have stays : ∀ name, (name = names task → (origin (names task)).Steady) →
      view.attempts next name = view.attempts schedule.state name := by
    intro name steady
    refine moved.attempts name fun same => ?_
    have kept := underway.kept (names task) fun _ _ _ => steady same
    rw [kept]
    exact steady same
  refine { underway with ready := moved.ready, isOpen := moved.isOpen, waits := ?_, kept := ?_ }
  · intro member isMember
    have sleeps : member.1.task ∈ schedule.sleepers.map (·.task) := by
      rw [underway.sleepers, List.map_map]
      exact List.mem_map_of_mem isMember
    have other : member.1.task < started :=
      List.mem_range.mp (underway.tasks.mem_iff.mp
        (List.mem_append_right _ (List.mem_append_right _ sleeps)))
    have same := stays (names member.1.task) fun same =>
      same ▸ apart _ other _ own (fun is => distinct.1.2 (is ▸ sleeps)) same
    show view.Waits _ _ _ (view.attempts next _) _
    rw [same]
    exact underway.waits member isMember
  · intro name steady
    show view.attempts next name = origin name
    rw [stays name fun same => same ▸ steady task own same.symm, underway.kept name steady]

theorem finish (underway : Underway view names good origin started [task] crew schedule)
    {result : α} (holds : good task result) :
    Underway view names good origin started [] crew
      { schedule with finished := schedule.finished ++ [(task, result)] } :=
  { underway with
    ended := by
      simp only [List.forall_mem_append, List.forall_mem_singleton]
      exact ⟨underway.ended, holds⟩
    tasks := by
      refine .trans ?_ underway.tasks
      simp only [List.map_append, List.map_singleton, List.nil_append, List.append_assoc,
        List.singleton_append]
      exact List.perm_middle }

theorem sleep (underway : Underway view names good origin started [task] crew schedule)
    {delay : Int} {wakeUp : Int → σ → σ × Program α} {cost : Nat}
    (waits : view.Waits (names task) (good task) cost
      (view.attempts schedule.state (names task)) wakeUp) :
    Underway view names good origin started []
      (crew ++ [(schedule.sleeper task delay wakeUp, cost)])
      { schedule with
        registered := schedule.registered + 1
        sleepers := schedule.sleepers ++ [schedule.sleeper task delay wakeUp] } :=
  { underway with
    sleepers := by
      rw [List.map_append, underway.sleepers]
      rfl
    numbered := by
      rw [List.map_append, List.nodup_append]
      refine ⟨underway.numbered, List.nodup_singleton _, ?_⟩
      intro number isNumber other isOther
      obtain rfl := List.mem_singleton.mp isOther
      obtain ⟨one, member, rfl⟩ := List.mem_map.mp isNumber
      exact Nat.ne_of_lt (underway.below one member)
    below := by
      simp only [List.forall_mem_append, List.forall_mem_singleton]
      exact ⟨fun one member => Nat.lt_succ_of_lt (underway.below one member),
        Nat.lt_succ_self _⟩
    waits := by
      simp only [List.forall_mem_append, List.forall_mem_singleton]
      exact ⟨underway.waits, waits⟩
    tasks := by
      refine .trans ?_ underway.tasks
      simp only [List.map_append, List.map_singleton, List.nil_append, ← List.append_assoc]
      exact List.perm_append_comm }

theorem resume (underway : Underway view names good origin started [task] crew schedule)
    (serves : host.Serves view) (apart : Apart names origin started) {program : Program α}
    {bound : Nat}
    (settles : program.Settles view.pauses (names task) (fun result _ => good task result) bound
      (view.attempts schedule.state (names task))) :
    ∃ later, Underway view names good origin started [] later
        (schedule.resume host task program) ∧
      effort later ≤ effort crew + bound := by
  have advanced := serves.advance schedule.now settles underway.ready underway.isOpen rfl
  rcases came : program.advance host schedule.now schedule.state with ⟨next, outcome⟩
  rw [came] at advanced
  cases advanced with
  | finished moved holds =>
      rw [Schedule.resume, came]
      exact ⟨crew, (underway.moved apart moved).finish holds, Nat.le_add_right _ _⟩
  | asleep moved waits =>
      rw [Schedule.resume, came]
      exact ⟨_, (underway.moved apart moved).sleep waits, (effort_concat _ _ _).le⟩

theorem removed (underway : Underway view names good origin started [] crew schedule)
    {sleeper : Sleeper σ α} (member : sleeper ∈ schedule.sleepers) (now : Int) :
    ∃ before cost after, crew = before ++ (sleeper, cost) :: after ∧
      view.Waits (names sleeper.task) (good sleeper.task) cost
        (view.attempts schedule.state (names sleeper.task)) sleeper.wakeUp ∧
      Underway view names good origin started [sleeper.task] (before ++ after)
        { schedule with
          now
          sleepers := schedule.sleepers.filter (·.registration != sleeper.registration) } := by
  rw [underway.sleepers] at member
  obtain ⟨⟨found, cost⟩, isMember, same⟩ := List.mem_map.mp member
  obtain rfl : found = sleeper := same
  obtain ⟨before, after, rfl⟩ := List.append_of_mem isMember
  have split := underway.sleepers
  rw [List.map_append, List.map_cons] at split
  have distinct : ∀ other ∈ (before ++ after).map (·.1),
      other.registration ≠ found.registration := by
    have numbered := underway.numbered
    rw [split, List.map_append, List.map_cons, List.nodup_middle, ← List.map_append,
      ← List.map_append, List.nodup_cons] at numbered
    intro other isOther same
    exact numbered.1 (List.mem_map.mpr ⟨other, isOther, same⟩)
  have others : schedule.sleepers.filter (·.registration != found.registration) =
      (before ++ after).map (·.1) := by
    rw [split, List.filter_append, List.filter_cons_of_neg (by simp), ← List.filter_append,
      ← List.map_append, List.filter_eq_self]
    exact fun other isOther => bne_iff_ne.mpr (distinct other isOther)
  have remain : List.Sublist
      (schedule.sleepers.filter (·.registration != found.registration)) schedule.sleepers :=
    List.filter_sublist
  refine ⟨before, cost, after, rfl, underway.waits _ isMember, { underway with
    sleepers := others
    numbered := underway.numbered.sublist (remain.map _)
    below := fun one isOne => underway.below one (remain.subset isOne)
    waits := ?_
    tasks := ?_ }⟩
  · intro one isOne
    refine underway.waits one ?_
    rw [List.mem_append] at isOne ⊢
    exact isOne.imp_right (List.mem_cons_of_mem _)
  · refine .trans ?_ underway.tasks
    rw [others, split]
    simp only [List.map_append, List.map_cons, List.nil_append, List.singleton_append]
    rw [← List.append_assoc, ← List.append_assoc]
    exact List.perm_middle.symm

/-- A wake-up brings a program nearer to its end, or lets it wait longer for its slot; in that case
the limiter has to give way no later than before. -/
theorem wake (underway : Underway view names good origin started [] crew schedule)
    (serves : host.Serves view) (apart : Apart names origin started) {sleeper : Sleeper σ α}
    (member : sleeper ∈ schedule.sleepers) :
    ∃ later, Underway view names good origin started [] later (schedule.wake host sleeper) ∧
      (effort later < effort crew ∨ effort later = effort crew ∧
        ∀ time, (view.limiter schedule.state).FreeBy time →
          (view.limiter (schedule.wake host sleeper).state).FreeBy time ∧
            patience time later < patience time crew) := by
  obtain ⟨before, cost, after, rfl, waits, removed⟩ :=
    underway.removed member (max schedule.now sleeper.wake)
  cases waits with
  | reply bound fewer wakes =>
      obtain ⟨shows, settles⟩ :=
        wakes (max schedule.now sleeper.wake) schedule.state underway.ready
      have awake := removed.moved apart (.of_shows shows underway.isOpen)
      obtain ⟨later, goesOn, less⟩ := awake.resume serves apart (shows.attempts ▸ settles)
      refine ⟨later, goesOn, Or.inl ?_⟩
      rw [effort_middle]
      omega
  | slot scope target next bound fewer wakes goesOn =>
      let awake : Schedule σ α :=
        { schedule with
          now := max schedule.now sleeper.wake
          sleepers := schedule.sleepers.filter (·.registration != sleeper.registration) }
      have woken : schedule.wake host sleeper =
          awake.resume host sleeper.task (.ask (.takeSlot scope target) next) := by
        rw [Schedule.wake, wakes]
      obtain ⟨granted, moved, same, answer⟩ | ⟨refused, pause, moved, same, late, answer, busy⟩ :=
        serves.slot underway.ready underway.isOpen (names sleeper.task) scope target awake.now
      · have resumed : schedule.wake host sleeper =
            Schedule.resume host { awake with state := granted } sleeper.task (next (.ok ())) :=
          woken.trans (Schedule.resume_of_now answer sleeper.task next)
        obtain ⟨later, ran, less⟩ := (removed.moved apart moved).resume serves apart (same ▸ goesOn)
        rw [resumed]
        refine ⟨later, ran, Or.inl ?_⟩
        rw [effort_middle]
        omega
      · have resumed : schedule.wake host sleeper = _ :=
          woken.trans (Schedule.resume_of_putOff answer sleeper.task next)
        have early : sleeper.wake ≤ awake.now := le_max_right _ _
        rw [resumed]
        refine ⟨_, (removed.moved apart moved).sleep (.slot scope target next bound fewer
          (fun _ _ => rfl) (same ▸ goesOn)), Or.inr ⟨?_, fun time free => ⟨(busy time free).1, ?_⟩⟩⟩
        · rw [effort_concat, effort_middle]
        · have busy := (busy time free).2
          rw [patience_concat, patience_middle]
          show _ + (time - (awake.now + pause)).toNat < _
          omega

theorem step (underway : Underway view names good origin started [] crew schedule)
    (serves : host.Serves view) (apart : Apart names origin started) {next : Schedule σ α}
    (steps : schedule.step host = some next) :
    ∃ later, Underway view names good origin started [] later next ∧
      (effort later < effort crew ∨ effort later = effort crew ∧
        ∀ time, (view.limiter schedule.state).FreeBy time →
          (view.limiter next.state).FreeBy time ∧ patience time later < patience time crew) := by
  obtain ⟨sleeper, found, woken⟩ := Option.map_eq_some_iff.mp steps
  rw [underway.alone] at woken
  obtain rfl : schedule.wake host sleeper = next := woken
  exact underway.wake serves apart (Sleeper.earliest_some found).1

theorem going (underway : Underway view names good origin started [] crew schedule)
    {stops : α → Bool} (goes : ∀ task result, good task result → stops result = false) :
    (schedule.finished.any fun (_, result) => stops result) = false := by
  rw [List.any_eq_false]
  rintro ⟨task, result⟩ isEntry
  show ¬ stops result = true
  rw [goes task result (underway.ended _ isEntry)]
  exact Bool.false_ne_true

/-- After some number of wake-ups all programs have ended, with good results. -/
theorem run (underway : Underway view names good origin started [] crew schedule)
    (serves : host.Serves view) (apart : Apart names origin started) {stops : α → Bool}
    (goes : ∀ task result, good task result → stops result = false) :
    ∃ enough final, (∀ wakeups, enough ≤ wakeups → schedule.run host stops wakeups = final) ∧
      Underway view names good origin started [] [] final := by
  -- A step that saves no request leaves the time alone at which the limiter has to give way.
  induction left : effort crew using Nat.strong_induction_on generalizing crew schedule with
  | _ requests fewerRequests =>
    obtain ⟨time, free⟩ := (view.limiter schedule.state).exists_freeBy
    induction wait : patience time crew using Nat.strong_induction_on
        generalizing crew schedule with
    | _ span shorter =>
      have going := underway.going goes
      cases steps : schedule.step host with
      | none =>
          have idle : schedule.sleepers = [] :=
            Sleeper.eq_nil_of_earliest (Option.map_eq_none_iff.mp steps)
          have nobody : crew = [] := by
            rw [underway.sleepers] at idle
            exact List.map_eq_nil_iff.mp idle
          refine ⟨0, schedule, fun wakeups _ => ?_, nobody ▸ underway⟩
          cases wakeups with
          | zero => rfl
          | succ wakeups => simp only [Schedule.run, going, steps, Bool.false_eq_true, if_false]
      | some next =>
          have stays : ∀ {enough : Nat} {final : Schedule σ α},
              (∀ wakeups, enough ≤ wakeups → next.run host stops wakeups = final) →
              ∀ wakeups, enough + 1 ≤ wakeups → schedule.run host stops wakeups = final := by
            intro enough final runs wakeups bound
            obtain ⟨wakeups, rfl⟩ := Nat.exists_eq_add_of_le' bound
            rw [← runs (wakeups + enough) (Nat.le_add_left _ _), ← Nat.add_assoc, Schedule.run]
            simp only [going, steps, Bool.false_eq_true, if_false]
          obtain ⟨later, goesOn, less | ⟨same, closer⟩⟩ := underway.step serves apart steps
          · obtain ⟨enough, final, runs, ended⟩ :=
              fewerRequests (effort later) (left ▸ less) goesOn rfl
            exact ⟨enough + 1, final, stays runs, ended⟩
          · obtain ⟨freeStill, closer⟩ := closer time free
            obtain ⟨enough, final, runs, ended⟩ :=
              shorter (patience time later) (wait ▸ closer) goesOn (same.trans left) freeStill rfl
            exact ⟨enough + 1, final, stays runs, ended⟩

theorem start (underway : Underway view names good origin started [] crew schedule) :
    Underway view names good origin (started + 1) [started] crew schedule :=
  { underway with
    tasks := by
      rw [List.range_succ]
      exact (underway.tasks.cons started).trans (List.perm_append_singleton started _).symm
    kept := fun name steady => underway.kept name fun task before =>
      steady task (Nat.lt_succ_of_lt before) }

end Underway

/-- A moment at which no program is under way. -/
structure HostView.Quiet (view : HostView σ) (moment : Moment σ) : Prop where
  ready : view.Ready moment.state
  isOpen : (view.limiter moment.state).IsOpen
  alone : moment.strays = []

namespace Moment

variable {host : Host σ} {view : HostView σ} {moment : Moment σ}

end Moment

end WebHarvest
