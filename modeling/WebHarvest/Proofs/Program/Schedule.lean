import Mathlib.Algebra.Order.Ring.Int
import WebHarvest.Program.Schedule

/-!
# Single steps of the scheduler

What a program does up to its next wait, and who is woken first.
-/

set_option autoImplicit false

namespace WebHarvest

/-- Items in the order of their keys have distinct keys. -/
theorem filter_key_ne {ι : Type} (key : ι → Nat) {before after : List ι} {item : ι}
    (ordered : (before ++ item :: after).Pairwise fun one other => key one < key other) :
    ((before ++ item :: after).filter fun other => key other != key item) = before ++ after := by
  rw [List.pairwise_append, List.pairwise_cons] at ordered
  rw [List.filter_append, List.filter_cons_of_neg (by simp), ← List.filter_append,
    List.filter_eq_self]
  intro other isOther
  rcases List.mem_append.mp isOther with isBefore | isAfter
  · exact bne_iff_ne.mpr (Nat.ne_of_lt (ordered.2.2 other isBefore item List.mem_cons_self))
  · exact bne_iff_ne.mpr (Nat.ne_of_gt (ordered.2.1.1 other isAfter))

theorem Sleeper.eq_nil_of_earliest {σ α : Type} {sleepers : List (Sleeper σ α)}
    (missing : Sleeper.earliest sleepers = none) : sleepers = [] := by
  cases sleepers with
  | nil => rfl
  | cons sleeper rest =>
      rw [earliest] at missing
      cases later : earliest rest with
      | none => simp [later] at missing
      | some other => simp [later] at missing

theorem Sleeper.before_iff {σ α β : Type} (a : Sleeper σ α) (b : Sleeper σ β) :
    a.before b = true ↔ a.wake < b.wake ∨ a.wake = b.wake ∧ a.registration < b.registration := by
  simp only [before, Bool.or_eq_true, Bool.and_eq_true, decide_eq_true_eq, beq_iff_eq]

theorem Sleeper.earliest_some {σ α : Type} {sleepers : List (Sleeper σ α)} {first : Sleeper σ α}
    (found : Sleeper.earliest sleepers = some first) :
    first ∈ sleepers ∧ ∀ sleeper ∈ sleepers, first.wake ≤ sleeper.wake := by
  induction sleepers generalizing first with
  | nil => cases found
  | cons sleeper rest ih =>
      rw [earliest] at found
      cases later : earliest rest with
      | none =>
          rw [later] at found
          obtain rfl := Option.some.inj found
          simp [eq_nil_of_earliest later]
      | some other =>
          rw [later] at found
          obtain ⟨member, least⟩ := ih later
          by_cases sooner : other.before sleeper = true
          · obtain rfl : other = first := by simpa [sooner] using found
            have ordered : other.wake ≤ sleeper.wake := by
              rw [before_iff] at sooner
              omega
            exact ⟨List.mem_cons_of_mem _ member, by simpa [ordered] using least⟩
          · obtain rfl : sleeper = first := by simpa [sooner] using found
            have ordered : sleeper.wake ≤ other.wake := by
              rw [before_iff] at sooner
              omega
            refine ⟨List.mem_cons_self, ?_⟩
            simp only [List.forall_mem_cons]
            exact ⟨le_rfl, fun one isOne => ordered.trans (least one isOne)⟩

/-- Of sleepers in the order of their registration, the first of those that are due soonest wakes
up. -/
theorem Sleeper.earliest_of_first {σ α : Type} {before after : List (Sleeper σ α)}
    {first : Sleeper σ α}
    (ordered : (before ++ first :: after).Pairwise (·.registration < ·.registration))
    (sooner : ∀ sleeper ∈ before, first.wake < sleeper.wake)
    (least : ∀ sleeper ∈ after, first.wake ≤ sleeper.wake) :
    earliest (before ++ first :: after) = some first := by
  induction before with
  | nil =>
      rw [List.nil_append, earliest]
      cases later : earliest after with
      | none => rfl
      | some other =>
          obtain ⟨member, -⟩ := earliest_some later
          have registered := (List.pairwise_cons.mp ordered).1 other member
          have wakes := least other member
          have second : ¬ other.before first = true := by
            rw [before_iff]
            omega
          exact congrArg some (if_neg second)
  | cons sleeper before ih =>
      rw [List.cons_append, earliest, ih (List.pairwise_cons.mp ordered).2
        fun other member => sooner other (List.mem_cons_of_mem _ member)]
      have isSooner : first.before sleeper = true :=
        (before_iff first sleeper).mpr (.inl (sooner sleeper List.mem_cons_self))
      exact congrArg some (if_pos isSooner)

theorem Sleeper.split_of_earliest {σ α : Type} {sleepers : List (Sleeper σ α)}
    {first : Sleeper σ α}
    (ordered : sleepers.Pairwise (·.registration < ·.registration))
    (found : earliest sleepers = some first) :
    ∃ before after, sleepers = before ++ first :: after ∧
      (∀ sleeper ∈ before, first.wake < sleeper.wake) ∧
      ∀ sleeper ∈ after, first.wake ≤ sleeper.wake := by
  induction sleepers generalizing first with
  | nil => cases found
  | cons sleeper rest ih =>
      obtain ⟨registered, restOrdered⟩ := List.pairwise_cons.mp ordered
      obtain ⟨-, least⟩ := earliest_some found
      rw [earliest] at found
      cases later : earliest rest with
      | none =>
          rw [later] at found
          cases found
          exact ⟨[], rest, rfl, nofun, fun other member => least other (.tail _ member)⟩
      | some other =>
          rw [later] at found
          obtain ⟨before, after, rfl, sooner, noLater⟩ := ih restOrdered later
          have isRegistered := registered other (by simp)
          by_cases isSooner : other.before sleeper = true
          · obtain rfl : other = first := by simpa [isSooner] using found
            rw [before_iff] at isSooner
            exact ⟨sleeper :: before, after, rfl, List.forall_mem_cons.mpr ⟨by omega, sooner⟩,
              noLater⟩
          · obtain rfl : sleeper = first := by simpa [isSooner] using found
            exact ⟨[], _, rfl, nofun, fun one member => least one (.tail _ member)⟩

namespace Program

variable {σ α : Type} {host : Host σ} {request : Request} {now delay : Int} {state next : σ}

theorem advance_of_now {reply : request.Reply}
    (answers : host.answer request now state = (next, .now reply))
    (goesOn : request.Reply → Program α) :
    (ask request goesOn).advance host now state = (goesOn reply).advance host now next := by
  simp only [advance, answers]

theorem advance_of_later {finish : Int → σ → σ × request.Reply}
    (answers : host.answer request now state = (next, .later delay finish))
    (goesOn : request.Reply → Program α) :
    (ask request goesOn).advance host now state =
      (next, .asleep delay fun woken state =>
        ((finish woken state).1, goesOn (finish woken state).2)) := by
  simp only [advance, answers]

theorem advance_of_putOff (answers : host.answer request now state = (next, .putOff delay))
    (goesOn : request.Reply → Program α) :
    (ask request goesOn).advance host now state =
      (next, .asleep delay fun _ state => (state, .ask request goesOn)) := by
  simp only [advance, answers]

end Program

namespace Schedule

variable {σ α : Type}

theorem resume_of_now {host : Host σ} {schedule : Schedule σ α} {request : Request}
    {reply : request.Reply} {state : σ}
    (answers : host.answer request schedule.now schedule.state = (state, .now reply))
    (task : Nat) (next : request.Reply → Program α) :
    schedule.resume host task (.ask request next) =
      { schedule with state }.resume host task (next reply) := by
  rw [resume, Program.advance_of_now answers]
  rcases goesOn : (next reply).advance host schedule.now state with ⟨after, pause⟩
  cases pause with
  | finished result => simp only [resume, goesOn]
  | asleep delay wakeUp => simp only [resume, goesOn]; rfl

theorem resume_of_later {host : Host σ} {schedule : Schedule σ α} {request : Request}
    {delay : Int} {state : σ} {finish : Int → σ → σ × request.Reply}
    (answers : host.answer request schedule.now schedule.state = (state, .later delay finish))
    (task : Nat) (next : request.Reply → Program α) :
    schedule.resume host task (.ask request next) =
      { schedule with
        state
        registered := schedule.registered + 1
        sleepers := schedule.sleepers ++ [schedule.sleeper task delay fun woken state =>
          ((finish woken state).1, next (finish woken state).2)] } := by
  rw [resume, Program.advance_of_later answers]

theorem resume_of_putOff {host : Host σ} {schedule : Schedule σ α} {request : Request}
    {delay : Int} {state : σ}
    (answers : host.answer request schedule.now schedule.state = (state, .putOff delay))
    (task : Nat) (next : request.Reply → Program α) :
    schedule.resume host task (.ask request next) =
      { schedule with
        state
        registered := schedule.registered + 1
        sleepers := schedule.sleepers ++ [schedule.sleeper task delay fun _ state =>
          (state, .ask request next)] } := by
  rw [resume, Program.advance_of_putOff answers]

/-- Unless programs are given up, a schedule runs on step by step. -/
theorem run_of_step {host : Host σ} {schedule next : Schedule σ α}
    (steps : schedule.step host = some next) (wakeups : Nat) :
    schedule.run host (fun _ => false) (wakeups + 1) = next.run host (fun _ => false) wakeups := by
  rw [run, steps]
  exact if_neg (by simp)

theorem run_of_halted {host : Host σ} {schedule : Schedule σ α}
    (halted : schedule.step host = none) (wakeups : Nat) :
    schedule.run host (fun _ => false) wakeups = schedule := by
  cases wakeups with
  | zero => rfl
  | succ wakeups =>
      rw [run, halted]
      exact ite_self _

end Schedule

end WebHarvest
