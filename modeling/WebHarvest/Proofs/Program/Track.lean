import WebHarvest.Proofs.Program.Watch

/-!
# What a log tells

On every host, and at every moment, the log of a scene tells of each program which exchanges it has
made and that these are a way through the program; of those that have ended it tells the whole run.
-/

set_option autoImplicit false

namespace WebHarvest

open Program (Reaches)

variable {σ α : Type}

theorem Program.Reaches.unique {program first second : Program α} {trace : List Exchange}
    (one : program.Reaches trace first) (other : program.Reaches trace second) :
    first = second := by
  induction one with
  | refl =>
      cases other
      rfl
  | ask reply _ ih =>
      cases other with
      | ask _ goesOn => exact ih goesOn

/-- Through the exchanges that the log tells of it, the program with number `task` has come to what
is left of it. -/
def Tells (programs : List (Program α)) (log : List Entry) (task : Nat) (rest : Program α) : Prop :=
  ∃ program, programs[task]? = some program ∧ program.Reaches (heardBy task log) rest

/-- The log tells of all programs, and those whose end it shows are done. -/
def TellsAll (programs : List (Program α)) (log : List Entry) : Prop :=
  ∀ task, task < programs.length → ∃ rest, Tells programs log task rest ∧
    (HasEnded task log → ∃ result, rest = .done result)

section Logs

variable {programs : List (Program α)} {log : List Entry} {task : Nat} {rest : Program α}

theorem Tells.unique {other : Program α} (tells : Tells programs log task rest)
    (also : Tells programs log task other) : rest = other := by
  obtain ⟨program, isProgram, reaches⟩ := tells
  obtain ⟨_, same, reaches'⟩ := also
  rw [isProgram] at same
  obtain rfl := Option.some.inj same
  exact reaches.unique reaches'

theorem Tells.of_same {more : List Entry} (tells : Tells programs log task rest)
    (same : heardBy task more = heardBy task log) : Tells programs more task rest := by
  obtain ⟨program, isProgram, reaches⟩ := tells
  exact ⟨program, isProgram, same ▸ reaches⟩

theorem heardBy_concat_of_ne {entry : Entry} (apart : entry.task ≠ task) :
    heardBy task (log ++ [entry]) = heardBy task log := by
  rw [heardBy_append, heardBy_of_ne (List.forall_mem_singleton.mpr apart), List.append_nil]

theorem heardBy_concat_self (log : List Entry) (entry : Entry) :
    heardBy entry.task (log ++ [entry]) = heardBy entry.task log ++ entry.exchange?.toList := by
  rw [heardBy_append, heardBy_self (List.forall_mem_singleton.mpr rfl)]
  rw [heard]
  cases shown : entry.exchange? with
  | none => rw [List.filterMap_cons_none shown, List.filterMap_nil, Option.toList_none]
  | some exchange => rw [List.filterMap_cons_some shown, List.filterMap_nil, Option.toList_some]

theorem HasEnded.of_concat {entry : Entry} (ended : HasEnded task (log ++ [entry])) :
    HasEnded task log ∨ entry.task = task ∧ entry.deed = .ends := by
  obtain ⟨time, member⟩ := ended
  rcases List.mem_append.mp member with before | last
  · exact Or.inl ⟨time, before⟩
  · obtain rfl := List.mem_singleton.mp last
    exact Or.inr ⟨rfl, rfl⟩

theorem TellsAll.not_ended {request : Request} {next : request.Reply → Program α}
    (all : TellsAll programs log) (known : task < programs.length)
    (tells : Tells programs log task (.ask request next)) : ¬ HasEnded task log := by
  intro ended
  obtain ⟨rest, told, done⟩ := all task known
  obtain ⟨result, rfl⟩ := done ended
  cases tells.unique told

/-- One more entry keeps a log complete if it tells the truth of its own program. -/
theorem TellsAll.concat {entry : Entry} (all : TellsAll programs log)
    (own : ∃ rest, Tells programs (log ++ [entry]) entry.task rest ∧
      (HasEnded entry.task (log ++ [entry]) → ∃ result, rest = .done result)) :
    TellsAll programs (log ++ [entry]) := by
  intro task known
  by_cases same : entry.task = task
  · exact same ▸ own
  · obtain ⟨rest, tells, done⟩ := all task known
    refine ⟨rest, tells.of_same (heardBy_concat_of_ne same), fun ended => ?_⟩
    rcases ended.of_concat with before | ⟨itself, -⟩
    · exact done before
    · exact absurd itself same

/-- An entry that ends no exchange and no program leaves everything as it is. -/
theorem TellsAll.idle {entry : Entry} (all : TellsAll programs log)
    (known : entry.task < programs.length) (silent : entry.exchange? = none)
    (goesOn : entry.deed ≠ .ends) : TellsAll programs (log ++ [entry]) := by
  obtain ⟨rest, tells, done⟩ := all entry.task known
  refine all.concat ⟨rest, tells.of_same ?_, fun ended => ?_⟩
  · rw [heardBy_concat_self, silent, Option.toList_none, List.append_nil]
  · rcases ended.of_concat with before | ⟨-, ends⟩
    · exact done before
    · exact absurd ends goesOn

theorem forall_prefix_concat {property : List Entry → Prop} {entry : Entry}
    (before : ∀ past, past <+: log → property past) (last : property (log ++ [entry])) :
    ∀ past, past <+: log ++ [entry] → property past := by
  intro past isPrefix
  rcases List.prefix_concat_iff.mp isPrefix with rfl | shorter
  · exact last
  · exact before past shorter

/-- Put together program by program, what the log tells is all that has been heard. -/
theorem heard_perm {count : Nat} {log : List Entry} (inside : ∀ entry ∈ log, entry.task < count) :
    (heard log).Perm ((List.range count).flatMap fun task => heardBy task log) := by
  induction count generalizing log with
  | zero =>
      obtain rfl : log = [] := List.eq_nil_iff_forall_not_mem.mpr fun entry member =>
        absurd (inside entry member) (Nat.not_lt_zero _)
      exact .refl _
  | succ count ih =>
      have split := (List.filter_append_perm (·.task != count) log).symm.filterMap Entry.exchange?
      have last : log.filter (fun entry => !(entry.task != count)) =
          log.filter (·.task == count) := by
        congr 1
        funext entry
        exact Bool.not_not _
      have rest : (heard (log.filter (·.task != count))).Perm ((List.range count).flatMap
          fun task => heardBy task (log.filter (·.task != count))) := by
        refine ih fun entry member => ?_
        obtain ⟨isEntry, other⟩ := List.mem_filter.mp member
        have bound := inside entry isEntry
        have differ : entry.task ≠ count := bne_iff_ne.mp other
        omega
      rw [List.range_succ, List.flatMap_append, List.flatMap_singleton]
      rw [List.filterMap_append, last] at split
      refine split.trans (List.Perm.append (rest.trans (List.Perm.of_eq ?_)) (.refl _))
      refine List.flatMap_congr fun task member => ?_
      have differ : task ≠ count := Nat.ne_of_lt (List.mem_range.mp member)
      rw [heardBy, heardBy, List.filter_filter]
      congr 2
      funext entry
      by_cases same : entry.task = task
      · simp [same, differ]
      · simp [same]

end Logs

namespace Scene

/-- The log of the scene tells of all programs, at every moment up to now. -/
structure Tracked (programs : List (Program α)) (scene : Scene σ α) : Prop where
  tasks : (scene.active.map (·.1) ++ (scene.waiters.map (·.task) ++
    scene.finished.map (·.1))).Perm (List.range programs.length)
  ordered : scene.waiters.Pairwise (·.registration < ·.registration)
  below : ∀ waiter ∈ scene.waiters, waiter.registration < scene.registered
  goes : ∀ entry ∈ scene.active, Tells programs scene.log entry.1 entry.2
  waits : ∀ waiter ∈ scene.waiters,
    Tells programs scene.log waiter.task (.ask waiter.request waiter.next)
  ended : ∀ entry ∈ scene.finished, Tells programs scene.log entry.1 (.done entry.2) ∧
    HasEnded entry.1 scene.log
  inside : ∀ entry ∈ scene.log, entry.task < programs.length
  past : ∀ past, past <+: scene.log → TellsAll programs past

namespace Tracked

variable {programs : List (Program α)} {scene : Scene σ α} {host : Host σ}

theorem apart (tracked : scene.Tracked programs) {task : Nat} {program : Program α}
    {others : List (Nat × Program α)} (active : scene.active = (task, program) :: others) :
    task < programs.length ∧ (∀ entry ∈ others, task ≠ entry.1) ∧
      (∀ waiter ∈ scene.waiters, task ≠ waiter.task) ∧
      ∀ entry ∈ scene.finished, task ≠ entry.1 := by
  have shared := tracked.tasks
  rw [active, List.map_cons, List.cons_append] at shared
  have distinct := shared.nodup_iff.mpr List.nodup_range
  rw [List.nodup_cons, List.mem_append, List.mem_append, not_or, not_or] at distinct
  obtain ⟨⟨elsewhere, awake, alive⟩, -⟩ := distinct
  refine ⟨List.mem_range.mp (shared.mem_iff.mp List.mem_cons_self), ?_, ?_, ?_⟩
  · rintro entry member rfl
    exact elsewhere (List.mem_map.mpr ⟨entry, member, rfl⟩)
  · rintro waiter member rfl
    exact awake (List.mem_map_of_mem member)
  · rintro entry member rfl
    exact alive (List.mem_map_of_mem member)

/-- What the log tells of others when something is noted of one of the programs. -/
theorem tells_of_ne {task other : Nat} (differ : task ≠ other) {rest : Program α}
    (deeds : List Deed) (tells : Tells programs scene.log other rest) :
    Tells programs (scene.noted task deeds) other rest := by
  have nothing : heardBy other (deeds.map fun deed => (⟨scene.now, task, deed⟩ : Entry)) = [] := by
    apply heardBy_of_ne
    intro entry member
    obtain ⟨deed, -, rfl⟩ := List.mem_map.mp member
    exact differ
  exact tells.of_same (by rw [noted, heardBy_append, nothing, List.append_nil])

theorem tells_noted {task : Nat} {first rest : Program α} {deeds : List Deed}
    (tells : Tells programs scene.log task first)
    (goesOn : first.Reaches (heard (deeds.map fun deed => ⟨scene.now, task, deed⟩)) rest) :
    Tells programs (scene.noted task deeds) task rest := by
  obtain ⟨program, isProgram, reaches⟩ := tells
  have own : heardBy task (deeds.map fun deed => (⟨scene.now, task, deed⟩ : Entry)) =
      heard (deeds.map fun deed => ⟨scene.now, task, deed⟩) := by
    apply heardBy_self
    intro entry member
    obtain ⟨deed, -, rfl⟩ := List.mem_map.mp member
    rfl
  exact ⟨program, isProgram, by rw [noted, heardBy_append, own]; exact reaches.trans goesOn⟩

theorem inside_noted (tracked : scene.Tracked programs) {task : Nat}
    (known : task < programs.length) (deeds : List Deed) :
    ∀ entry ∈ scene.noted task deeds, entry.task < programs.length := by
  intro entry member
  rcases List.mem_append.mp member with member | member
  · exact tracked.inside entry member
  · obtain ⟨deed, -, rfl⟩ := List.mem_map.mp member
    exact known

theorem ended_noted (tracked : scene.Tracked programs) {task : Nat}
    (differ : ∀ entry ∈ scene.finished, task ≠ entry.1) (deeds : List Deed) :
    ∀ entry ∈ scene.finished, Tells programs (scene.noted task deeds) entry.1 (.done entry.2) ∧
      HasEnded entry.1 (scene.noted task deeds) := by
  intro entry member
  obtain ⟨tells, time, shown⟩ := tracked.ended entry member
  exact ⟨tells_of_ne (differ entry member) deeds tells, time, List.mem_append_left _ shown⟩

theorem ends (tracked : scene.Tracked programs) {task : Nat} {result : α}
    {others : List (Nat × Program α)} (active : scene.active = (task, .done result) :: others) :
    Tracked programs
      { scene with
        active := others
        finished := scene.finished ++ [(task, result)]
        log := scene.noted task [.ends] } := by
  obtain ⟨known, elsewhere, asleep, alive⟩ := tracked.apart active
  have own : Tells programs (scene.noted task [.ends]) task (.done result) :=
    tells_noted (tracked.goes (task, .done result) (active ▸ List.mem_cons_self)) (.refl _)
  refine ⟨?_, tracked.ordered, tracked.below, fun entry member => ?_, fun waiter member => ?_, ?_,
    tracked.inside_noted known _, ?_⟩
  · refine .trans ?_ tracked.tasks
    simp only [active, List.map_append, List.map_cons, ← List.append_assoc]
    exact (List.perm_append_singleton _ _).trans (List.Perm.of_eq (by simp))
  · exact tells_of_ne (elsewhere entry member) _
      (tracked.goes entry (active ▸ List.mem_cons_of_mem _ member))
  · exact tells_of_ne (asleep waiter member) _ (tracked.waits waiter member)
  · simp only [List.forall_mem_append, List.forall_mem_singleton]
    exact ⟨tracked.ended_noted alive _, own, scene.now,
      List.mem_append_right _ (List.mem_singleton_self _)⟩
  · exact forall_prefix_concat tracked.past
      ((tracked.past _ List.prefix_rfl).concat ⟨_, own, fun _ => ⟨result, rfl⟩⟩)

/-- Whoever asks is known by now; this is noted before the reply or the sleep. -/
theorem asks (tracked : scene.Tracked programs) {task : Nat} {request : Request}
    {next : request.Reply → Program α} {others : List (Nat × Program α)}
    (active : scene.active = (task, .ask request next) :: others) :
    ∀ past, past <+: scene.noted task [.asks request] → TellsAll programs past := by
  obtain ⟨known, -⟩ := tracked.apart active
  exact forall_prefix_concat tracked.past
    ((tracked.past _ List.prefix_rfl).idle known rfl (by rintro ⟨⟩))

theorem noted_pair (scene : Scene σ α) (task : Nat) (first second : Deed) :
    scene.noted task [first, second] = scene.noted task [first] ++ [⟨scene.now, task, second⟩] := by
  simp [noted]

theorem replied (tracked : scene.Tracked programs) {task : Nat} {request : Request}
    {next : request.Reply → Program α} {others : List (Nat × Program α)}
    (active : scene.active = (task, .ask request next) :: others) (state : σ)
    (reply : request.Reply) :
    Tracked programs
      { scene with
        state
        active := (task, next reply) :: others
        log := scene.noted task [.asks request, .hears request reply] } := by
  obtain ⟨known, elsewhere, asleep, alive⟩ := tracked.apart active
  have going := tracked.goes (task, .ask request next) (active ▸ List.mem_cons_self)
  have own : Tells programs (scene.noted task [.asks request, .hears request reply]) task
      (next reply) := tells_noted going (.ask reply (.refl _))
  refine ⟨?_, tracked.ordered, tracked.below, ?_, fun waiter member => ?_,
    tracked.ended_noted alive _, tracked.inside_noted known _, ?_⟩
  · refine .trans (List.Perm.of_eq ?_) tracked.tasks
    rw [active, List.map_cons, List.map_cons]
  · rw [List.forall_mem_cons]
    exact ⟨own, fun entry member => tells_of_ne (elsewhere entry member) _
      (tracked.goes entry (active ▸ List.mem_cons_of_mem _ member))⟩
  · exact tells_of_ne (asleep waiter member) _ (tracked.waits waiter member)
  · have asked := tracked.asks active
    have goesOn : ¬ HasEnded task (scene.noted task [.asks request, .hears request reply]) := by
      rw [noted_pair]
      intro ended
      rcases ended.of_concat with before | ⟨-, ends⟩
      · exact (asked _ List.prefix_rfl).not_ended known (tells_noted going (.refl _)) before
      · cases ends
    rw [noted_pair] at own goesOn ⊢
    exact forall_prefix_concat asked
      ((asked _ List.prefix_rfl).concat ⟨_, own, fun ended => absurd ended goesOn⟩)

theorem sleeps (tracked : scene.Tracked programs) {task : Nat} {request : Request}
    {next : request.Reply → Program α} {others : List (Nat × Program α)}
    (active : scene.active = (task, .ask request next) :: others) (state : σ) (wake delay : Int)
    (finish : Option (Int → σ → σ × request.Reply)) :
    Tracked programs
      { scene with
        state
        registered := scene.registered + 1
        active := others
        waiters := scene.waiters ++ [⟨task, wake, scene.registered, request, next, finish⟩]
        log := scene.noted task [.asks request, .sleeps delay] } := by
  obtain ⟨known, elsewhere, asleep, alive⟩ := tracked.apart active
  have going := tracked.goes (task, .ask request next) (active ▸ List.mem_cons_self)
  refine ⟨?_, ?_, ?_, fun entry member => ?_, ?_, tracked.ended_noted alive _,
    tracked.inside_noted known _, ?_⟩
  · refine .trans ?_ tracked.tasks
    simp only [active, List.map_append, List.map_cons, List.map_nil, List.append_assoc,
      List.cons_append, List.nil_append]
    exact (List.perm_middle.append_left _).trans List.perm_middle
  · refine List.pairwise_append.mpr ⟨tracked.ordered, List.pairwise_singleton _ _, ?_⟩
    intro earlier isEarlier later isLater
    obtain rfl := List.mem_singleton.mp isLater
    exact tracked.below earlier isEarlier
  · simp only [List.forall_mem_append, List.forall_mem_singleton]
    exact ⟨fun earlier isEarlier => Nat.lt_succ_of_lt (tracked.below earlier isEarlier),
      Nat.lt_succ_self _⟩
  · exact tells_of_ne (elsewhere entry member) _
      (tracked.goes entry (active ▸ List.mem_cons_of_mem _ member))
  · simp only [List.forall_mem_append, List.forall_mem_singleton]
    exact ⟨fun waiter member => tells_of_ne (asleep waiter member) _ (tracked.waits waiter member),
      tells_noted going (.refl _)⟩
  · have asked := tracked.asks active
    show ∀ past, past <+: scene.noted task [.asks request, .sleeps delay] → _
    rw [noted_pair]
    exact forall_prefix_concat asked
      ((asked _ List.prefix_rfl).idle known rfl (by rintro ⟨⟩))

/-- What is left of a scene when somebody is woken, with what the woken program goes on as. -/
theorem woken (tracked : scene.Tracked programs) (idle : scene.active = [])
    {waiter : Waiter σ α} (member : waiter ∈ scene.waiters) (now : Int) (state : σ)
    {log : List Entry} {program : Program α} (own : Tells programs log waiter.task program)
    (others : ∀ other rest, waiter.task ≠ other → Tells programs scene.log other rest →
      Tells programs log other rest)
    (ended : ∀ task, HasEnded task scene.log → HasEnded task log)
    (inside : ∀ entry ∈ log, entry.task < programs.length)
    (past : ∀ past, past <+: log → TellsAll programs past) :
    Tracked programs
      { scene with
        now
        state
        waiters := scene.waiters.filter (·.registration != waiter.registration)
        active := [(waiter.task, program)]
        log } := by
  obtain ⟨before, after, split, filtered⟩ := Waiter.split_of_mem tracked.ordered member
  have shared := tracked.tasks
  have distinct := shared.nodup_iff.mpr List.nodup_range
  simp only [idle, split, List.map_nil, List.nil_append, List.map_append, List.map_cons]
    at shared distinct
  have moved : (waiter.task :: ((before ++ after).map (·.task) ++ scene.finished.map (·.1))).Perm
      (List.range programs.length) := by
    refine .trans ?_ shared
    simp only [List.map_append, List.append_assoc, List.cons_append]
    exact List.perm_middle.symm
  have apart := (List.nodup_cons.mp (moved.nodup_iff.mpr List.nodup_range)).1
  rw [List.mem_append, not_or] at apart
  refine ⟨by simpa only [filtered, List.map_cons, List.map_nil, List.cons_append,
      List.nil_append] using moved, tracked.ordered.filter _,
    fun other isOther => tracked.below other (List.mem_filter.mp isOther).1, ?_, ?_, ?_, inside,
    past⟩
  · exact List.forall_mem_singleton.mpr own
  · intro other isOther
    refine others _ _ ?_ (tracked.waits other (List.mem_filter.mp isOther).1)
    intro same
    rw [filtered] at isOther
    exact apart.1 (same ▸ List.mem_map_of_mem isOther)
  · intro entry isEntry
    obtain ⟨tells, ends⟩ := tracked.ended entry isEntry
    refine ⟨others _ _ ?_ tells, ended _ ends⟩
    intro same
    exact apart.2 (same ▸ List.mem_map_of_mem isEntry)

theorem wake (tracked : scene.Tracked programs) (idle : scene.active = []) {waiter : Waiter σ α}
    (member : waiter ∈ scene.waiters) : (scene.wake waiter).Tracked programs := by
  have waiting := tracked.waits waiter member
  obtain ⟨program, isProgram, reaches⟩ := tracked.waits waiter member
  have known : waiter.task < programs.length := (List.getElem?_eq_some_iff.mp isProgram).1
  unfold Scene.wake
  cases finishes : waiter.finish with
  | none =>
      exact tracked.woken idle member _ _ waiting (fun _ _ _ tells => tells) (fun _ ends => ends)
        tracked.inside tracked.past
  | some finish =>
      let now := max scene.now waiter.wake
      let reply := (finish now scene.state).2
      have own : Tells programs (scene.log ++ [⟨now, waiter.task, .hears waiter.request reply⟩])
          waiter.task (waiter.next reply) := by
        refine ⟨program, isProgram, ?_⟩
        have concat := heardBy_concat_self scene.log
          ⟨now, waiter.task, .hears waiter.request reply⟩
        exact concat ▸ reaches.snoc reply
      refine tracked.woken idle member _ _ own ?_ ?_ ?_ ?_
      · exact fun other rest differ tells => tells.of_same (heardBy_concat_of_ne differ)
      · exact fun task ⟨time, shown⟩ => ⟨time, List.mem_append_left _ shown⟩
      · exact List.forall_mem_append.mpr ⟨tracked.inside, List.forall_mem_singleton.mpr known⟩
      · have all := tracked.past _ List.prefix_rfl
        refine forall_prefix_concat tracked.past (all.concat ⟨_, own, fun ended => ?_⟩)
        rcases ended.of_concat with before | ⟨-, ends⟩
        · exact absurd before (all.not_ended known waiting)
        · cases ends

theorem step {next : Scene σ α} (tracked : scene.Tracked programs)
    (steps : scene.step host = some next) : next.Tracked programs := by
  unfold Scene.step at steps
  split at steps
  next task program others active =>
    obtain rfl := Option.some.inj steps
    cases program with
    | done result => exact tracked.ends active
    | ask request goesOn =>
        rw [proceed]
        rcases host.answer request scene.now scene.state with
          ⟨state, reply | ⟨delay, finish⟩ | delay⟩
        · exact tracked.replied active state reply
        · exact tracked.sleeps active state _ _ (some finish)
        · exact tracked.sleeps active state _ _ none
  next idle =>
    obtain ⟨waiter, first, rfl⟩ := Option.map_eq_some_iff.mp steps
    exact tracked.wake idle (Waiter.earliest_some first).1

end Tracked

theorem Tracked.runs {programs : List (Program α)} {scene : Scene σ α}
    (tracked : scene.Tracked programs) {task : Nat} {result : α}
    (ended : (task, result) ∈ scene.finished) :
    ∃ program, programs[task]? = some program ∧ program.Runs (heardBy task scene.log) result := by
  obtain ⟨⟨program, isProgram, reaches⟩, -⟩ := tracked.ended _ ended
  exact ⟨program, isProgram, Program.reaches_done.mp reaches⟩

theorem start_tracked (moment : Moment σ) (programs : List (Program α)) :
    (start moment programs).Tracked programs where
  tasks := by
    have numbers : programs.zipIdx.map (fun entry => entry.2) = List.range programs.length := by
      rw [List.zipIdx_map_snd, List.range_eq_range']
    simp only [start, List.map_map, List.map_nil, List.append_nil]
    exact List.Perm.of_eq numbers
  ordered := List.Pairwise.nil
  below _ member := absurd member List.not_mem_nil
  goes entry member := by
    obtain ⟨⟨program, task⟩, isProgram, rfl⟩ := List.mem_map.mp member
    exact ⟨program, List.mk_mem_zipIdx_iff_getElem?.mp isProgram, .refl _⟩
  waits _ member := absurd member List.not_mem_nil
  ended _ member := absurd member List.not_mem_nil
  inside _ member := absurd member List.not_mem_nil
  past past isPrefix task known := by
    obtain rfl := List.prefix_nil.mp isPrefix
    refine ⟨programs[task], ⟨_, List.getElem?_eq_getElem known, .refl _⟩, ?_⟩
    rintro ⟨_, shown⟩
    exact absurd shown List.not_mem_nil

end Scene

theorem Moment.watch_tracked (host : Host σ) (wakeups : Nat) (stops : α → Bool)
    (moment : Moment σ) (programs : List (Program α)) :
    (moment.watch host wakeups stops programs).Tracked programs := by
  obtain ⟨-, steps, same⟩ := moment.watch_run host wakeups stops programs
  rw [← same]
  exact Scene.run_keeps host (Scene.Tracked programs) Scene.Tracked.step
    (Scene.start_tracked moment programs) steps

end WebHarvest
