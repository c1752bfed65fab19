import WebHarvest.Proofs.Browser.Pages
import WebHarvest.Proofs.Program.Together

/-!
# Who holds which page

When programs that keep their pages in order run together, every page that is open is held by one of
them that has begun and not ended, at every moment. Pages that are still open when nobody waits for
the programs any more are held by those that are left behind.
-/

set_option autoImplicit false

namespace WebHarvest

open Browser (PageId)

def Entry.isEnd (entry : Entry) : Bool :=
  match entry.deed with
  | .ends => true
  | _ => false

/-- Of the first programs, so many as `count`, those that have begun and not ended. -/
def inFlight (count : Nat) (log : List Entry) : List Nat :=
  (List.range count).filter fun task =>
    log.any (·.task == task) && !log.any fun entry => entry.task == task && entry.isEnd

/-- By the log, every program keeps its pages in order, and what it holds is given by `held`; it
holds a page only while it is in flight. -/
structure Holding (count : Nat) (log : List Entry) (held : Nat → Option PageId) : Prop where
  handles : ∀ task, Handles none (heardBy task log) (held task)
  flying : ∀ task page, held task = some page → task ∈ inFlight count log

/-- Whatever has been opened has been closed. -/
structure Cleared (trace : List Exchange) : Prop where
  closed : (pagesOpened trace).Perm (pagesClosed trace)
  used : (pagesOpened trace).Nodup → CallsWhileOpen trace

/-- How the pages stand after what was heard `earlier` and what the log tells of the programs that
run since then: every page that is open is held by a program in flight, one by each at most. If the
engine gives every page a number of its own, then no page is called before it has been opened or
after it has been closed. -/
structure Standing (count : Nat) (earlier : List Exchange) (log : List Entry) : Prop where
  held : ∃ held : Nat → Option PageId, (pagesOpened (earlier ++ heard log)).Perm
    (pagesClosed (earlier ++ heard log) ++ (inFlight count log).filterMap held)
  used : (pagesOpened (earlier ++ heard log)).Nodup → CallsWhileOpen (earlier ++ heard log)

theorem cleared_nil : Cleared [] := by
  refine ⟨.refl _, fun _ before exchange after page split => ?_⟩
  cases before with
  | nil | cons => cases split

theorem Cleared.closedLast {trace : List Exchange} (cleared : Cleared trace)
    (distinct : (pagesOpened trace).Nodup) : ∀ page ∈ pagesOpened trace, ClosedLast page trace :=
  fun _ opened => (cleared.used distinct).closedLast (cleared.closed.mem_iff.mp opened)

theorem hasEnded_iff {task : Nat} {log : List Entry} :
    HasEnded task log ↔ (log.any fun entry => entry.task == task && entry.isEnd) = true := by
  rw [List.any_eq_true]
  constructor
  · rintro ⟨time, member⟩
    exact ⟨_, member, Bool.and_eq_true_iff.mpr ⟨beq_self_eq_true task, rfl⟩⟩
  · rintro ⟨⟨time, other, deed⟩, member, shown⟩
    obtain ⟨same, ends⟩ := Bool.and_eq_true_iff.mp shown
    obtain rfl := beq_iff_eq.mp same
    cases deed with
    | ends => exact ⟨time, member⟩
    | _ => cases ends

section Logs

variable {count : Nat} {log : List Entry} {held : Nat → Option PageId}

theorem mem_inFlight {task : Nat} : task ∈ inFlight count log ↔
    task < count ∧ (∃ entry ∈ log, entry.task = task) ∧ ¬ HasEnded task log := by
  rw [inFlight, List.mem_filter, List.mem_range, Bool.and_eq_true, List.any_eq_true, hasEnded_iff,
    Bool.not_eq_true', Bool.not_eq_true]
  simp only [beq_iff_eq]

theorem nodup_inFlight (count : Nat) (log : List Entry) : (inFlight count log).Nodup :=
  List.nodup_range.filter _

theorem inFlight_length_le (count : Nat) (log : List Entry) :
    (inFlight count log).length ≤ count :=
  (List.length_filter_le _ _).trans (Nat.le_of_eq List.length_range)

/-- What has been opened has been closed or is held by a program in flight. -/
theorem Holding.perm (holding : Holding count log held)
    (inside : ∀ entry ∈ log, entry.task < count) :
    (pagesOpened (heard log)).Perm
      (pagesClosed (heard log) ++ (inFlight count log).filterMap held) := by
  have opened := (heard_perm inside).filterMap Exchange.opened?
  have closed := (heard_perm inside).filterMap Exchange.closed?
  rw [List.filterMap_flatMap] at opened closed
  have each (task : Nat) : (heardBy task log).filterMap Exchange.opened? =
      (heardBy task log).filterMap Exchange.closed? ++ (held task).toList :=
    (holding.handles task).balance
  have flying : (List.range count).flatMap (fun task => (held task).toList) =
      (inFlight count log).filterMap held := by
    rw [← List.filterMap_eq_flatMap_toList, inFlight, List.filterMap_filter]
    refine List.filterMap_congr fun task member => ?_
    cases holds : held task with
    | none => exact (ite_self none).symm
    | some page =>
        have flies := (List.mem_filter.mp (holding.flying task page holds)).2
        exact (if_pos flies).symm
  calc (pagesOpened (heard log)).Perm _ := opened
    _ = _ := List.flatMap_congr fun task _ => each task
    List.Perm _ _ := (List.flatMap_append_perm _ _ _).symm
    List.Perm _ _ := by
      rw [flying]
      exact closed.symm.append_right _

variable {α : Type} {programs : List (Program α)} {earlier : List Exchange}

/-- Programs that keep their pages in order hold what the log tells of them. -/
theorem holding_of_tells (tidy : ∀ program ∈ programs, program.Tidy none)
    (fits : programs.length ≤ count) (inside : ∀ entry ∈ log, entry.task < programs.length)
    (all : TellsAll programs log) : ∃ held, Holding count log held := by
  have each (task : Nat) : ∃ after, Handles none (heardBy task log) after ∧
      ∀ page, after = some page → task ∈ inFlight count log := by
    by_cases begun : ∃ entry ∈ log, entry.task = task
    · obtain ⟨entry, member, rfl⟩ := begun
      have known := inside entry member
      obtain ⟨rest, ⟨program, isProgram, reaches⟩, done⟩ := all entry.task known
      obtain ⟨after, left, handles⟩ := (tidy _ (List.mem_of_getElem? isProgram)).handles reaches
      refine ⟨after, handles, fun page holds =>
        mem_inFlight.mpr ⟨by omega, ⟨entry, member, rfl⟩, fun ended => ?_⟩⟩
      obtain ⟨result, rfl⟩ := done ended
      cases left
      cases holds
    · rw [heardBy_of_ne fun entry member same => begun ⟨entry, member, same⟩]
      exact ⟨none, .nil none, by rintro _ ⟨⟩⟩
  choose held handles flying using each
  exact ⟨held, handles, flying⟩

/-- An item of two lists in a row is in the first one or in the second. -/
theorem append_split {item : α} {first second before after : List α}
    (same : first ++ second = before ++ item :: after) :
    (∃ rest, first = before ++ item :: rest) ∨
      ∃ own, before = first ++ own ∧ second = own ++ item :: after := by
  rcases List.append_eq_append_iff.mp same with ⟨own, isBefore, isSecond⟩ | ⟨rest, isFirst, split⟩
  · exact Or.inr ⟨own, isBefore, isSecond⟩
  · cases rest with
    | nil => exact Or.inr ⟨[], by rw [isFirst, List.append_nil, List.append_nil], split.symm⟩
    | cons first rest =>
        obtain ⟨rfl, -⟩ := List.cons.inj split
        exact Or.inl ⟨rest, isFirst⟩

theorem heard_split {before after : List Exchange} {exchange : Exchange}
    (heards : heard log = before ++ exchange :: after) :
    ∃ prior entry rest, log = prior ++ entry :: rest ∧ heard prior = before ∧
      entry.exchange? = some exchange := by
  obtain ⟨first, rest, rfl, rfl, follows⟩ := List.filterMap_eq_append_iff.mp heards
  obtain ⟨silent, entry, others, rfl, nothing, shown, -⟩ := List.filterMap_eq_cons_iff.mp follows
  refine ⟨first ++ silent, entry, others, (List.append_assoc _ _ _).symm, ?_, shown⟩
  rw [heard_append, show heard silent = [] from List.filterMap_eq_nil_iff.mpr nothing,
    List.append_nil]
  rfl

/-- A call of a program that runs is made on the page that the program holds. -/
theorem held_of_call {prior : List Entry} {entry : Entry} {exchange : Exchange} {page : PageId}
    (holding : Holding count prior held)
    (next : ∃ later, Holding count (prior ++ [entry]) later)
    (shown : entry.exchange? = some exchange) (isCall : exchange.page? = some page) :
    page ∈ (inFlight count prior).filterMap held := by
  obtain ⟨later, goesOn⟩ := next
  have handles := goesOn.handles entry.task
  rw [heardBy_concat_self, shown, Option.toList_some] at handles
  obtain ⟨middle, first, last⟩ := handles.split
  obtain rfl := last.holds isCall
  have holds := (holding.handles entry.task).unique first
  exact List.mem_filterMap.mpr ⟨entry.task, holding.flying _ _ holds, holds⟩

/-- How the pages stand follows from what the programs hold at every moment before. -/
theorem standing_of_holding (cleared : Cleared earlier)
    (inside : ∀ entry ∈ log, entry.task < count)
    (holding : ∀ past, past <+: log → ∃ held, Holding count past held) :
    Standing count earlier log := by
  constructor
  · obtain ⟨held, holds⟩ := holding log List.prefix_rfl
    refine ⟨held, ?_⟩
    rw [pagesOpened_append, pagesClosed_append, List.append_assoc]
    exact cleared.closed.append (holds.perm inside)
  · intro distinct before exchange after page split isCall
    rw [pagesOpened_append] at distinct
    rcases append_split split with ⟨rest, rfl⟩ | ⟨own, rfl, heards⟩
    · exact cleared.used (List.nodup_append.mp distinct).1 before exchange rest page rfl isCall
    · obtain ⟨prior, entry, others, rfl, rfl, shown⟩ := heard_split heards
      obtain ⟨held, holds⟩ := holding prior ⟨_, rfl⟩
      have next := holding (prior ++ [entry]) ⟨others, by simp⟩
      have called := held_of_call holds next shown isCall
      have shared := holds.perm fun entry member => inside entry (List.mem_append_left _ member)
      have opened : page ∈ pagesOpened (heard prior) :=
        shared.mem_iff.mpr (List.mem_append_right _ called)
      rw [heard_append, pagesOpened_append, ← List.append_assoc] at distinct
      have apart := List.nodup_append.mp (List.nodup_append.mp distinct).1
      rw [pagesOpened_append, pagesClosed_append, List.mem_append, List.mem_append, not_or]
      refine ⟨Or.inr opened, fun before => ?_, fun closed => ?_⟩
      · exact apart.2.2 page (cleared.closed.mem_iff.mpr before) page opened rfl
      · exact (List.nodup_append.mp (shared.nodup_iff.mp apart.2.1)).2.2 page closed page called rfl

end Logs

/-- What is seen of programs that run together: their log, and how many there may be. -/
structure Sight where
  limit : Nat
  log : List Entry

def heardIn (sights : List Sight) : List Exchange := sights.flatMap fun sight => heard sight.log

/-- At every moment that is seen, no more programs run than there may be, and the pages stand as
they should. -/
def Orderly (earlier : List Exchange) (sights : List Sight) : Prop :=
  ∀ before sight after past, sights = before ++ sight :: after → past <+: sight.log →
    (∀ entry ∈ past, entry.task < sight.limit) ∧
      Standing sight.limit (earlier ++ heardIn before) past

/-- Every page that is still open is held by a program that is left behind. -/
def Leaves {σ : Type} (trace : List Exchange) (moment : Moment σ) : Prop :=
  (pagesOpened trace).length ≤ (pagesClosed trace).length + moment.strays.length ∧
    (moment.strays = [] → Cleared trace)

/-- No more pages are open than programs are in flight. -/
theorem Standing.open_le {count : Nat} {earlier : List Exchange} {log : List Entry}
    (standing : Standing count earlier log) :
    (pagesOpened (earlier ++ heard log)).length ≤
      (pagesClosed (earlier ++ heard log)).length + (inFlight count log).length := by
  obtain ⟨held, shared⟩ := standing.held
  rw [shared.length_eq, List.length_append]
  exact Nat.add_le_add_left (List.length_filterMap_le held _) _

theorem Cleared.leaves {σ : Type} {trace : List Exchange} (cleared : Cleared trace)
    (moment : Moment σ) : Leaves trace moment := by
  refine ⟨?_, fun _ => cleared⟩
  rw [cleared.closed.length_eq]
  exact Nat.le_add_right _ _

theorem orderly_nil (earlier : List Exchange) : Orderly earlier [] := by
  intro before sight after past split
  cases before with
  | nil | cons => cases split

theorem Orderly.cons {earlier : List Exchange} {sight : Sight} {sights : List Sight}
    (first : ∀ past, past <+: sight.log →
      (∀ entry ∈ past, entry.task < sight.limit) ∧ Standing sight.limit earlier past)
    (rest : Orderly (earlier ++ heard sight.log) sights) : Orderly earlier (sight :: sights) := by
  intro before other after past split isPrefix
  cases before with
  | nil =>
      obtain ⟨rfl, -⟩ := List.cons.inj split
      rw [heardIn, List.flatMap_nil, List.append_nil]
      exact first past isPrefix
  | cons head before =>
      obtain ⟨rfl, others⟩ := List.cons.inj split
      rw [heardIn, List.flatMap_cons, ← List.append_assoc]
      exact rest before other after past others isPrefix

namespace Moment

variable {σ α : Type}

/-- What is seen of programs that run together, and then what is seen next, unless some of them are
left behind. -/
def sights (host : Host σ) (wakeups limit : Nat) (stops : α → Bool) (programs : List (Program α))
    (next : Moment σ → List (Nat × α) → List Sight) (moment : Moment σ) : List Sight :=
  let (after, finished) := moment.runAll host wakeups stops programs
  ⟨limit, (moment.watch host wakeups stops programs).log⟩ ::
    if after.strays.isEmpty then next after finished else []

variable {host : Host σ} {wakeups limit : Nat} {stops : α → Bool} {moment : Moment σ}
variable {programs : List (Program α)} {earlier : List Exchange}

theorem inFlight_le_strays (alone : moment.strays = []) :
    (inFlight limit (moment.watch host wakeups stops programs).log).length ≤
      (moment.runAll host wakeups stops programs).1.strays.length := by
  let scene := moment.watch host wakeups stops programs
  have tracked : scene.Tracked programs := moment.watch_tracked host wakeups stops programs
  have tasks := tracked.tasks
  rw [(moment.watch_run host wakeups stops programs).1, List.map_nil, List.nil_append] at tasks
  have waiting : inFlight limit scene.log ⊆ scene.waiters.map (·.task) := by
    intro task member
    obtain ⟨-, ⟨entry, isEntry, rfl⟩, unended⟩ := mem_inFlight.mp member
    have known := tasks.mem_iff.mpr (List.mem_range.mpr (tracked.inside entry isEntry))
    rcases List.mem_append.mp known with waits | ended
    · exact waits
    · obtain ⟨finished, isFinished, same⟩ := List.mem_map.mp ended
      exact absurd (same ▸ (tracked.ended finished isFinished).2) unended
  have bound := ((nodup_inFlight limit scene.log).subperm waiting).length_le
  rw [watch_runAll alone]
  simpa only [Schedule.rest, Scene.schedule, List.length_append, List.length_map, List.length_nil,
    Nat.zero_add] using bound

section Tidiness

variable (tidy : ∀ program ∈ programs, program.Tidy none) (fits : programs.length ≤ limit)
variable (cleared : Cleared earlier)

include tidy fits cleared

theorem watch_standing {past : List Entry}
    (isPrefix : past <+: (moment.watch host wakeups stops programs).log) :
    (∀ entry ∈ past, entry.task < limit) ∧ Standing limit earlier past := by
  have tracked := moment.watch_tracked host wakeups stops programs
  have known : ∀ entry ∈ past, entry.task < programs.length := fun entry member =>
    tracked.inside entry (isPrefix.subset member)
  have inside : ∀ entry ∈ past, entry.task < limit := fun entry member =>
    Nat.lt_of_lt_of_le (known entry member) fits
  refine ⟨inside, standing_of_holding cleared inside fun before isBefore => ?_⟩
  exact holding_of_tells tidy fits (fun entry member => known entry (isBefore.subset member))
    (tracked.past before (isBefore.trans isPrefix))

theorem runAll_leaves (alone : moment.strays = []) :
    Leaves (earlier ++ heard (moment.watch host wakeups stops programs).log)
      (moment.runAll host wakeups stops programs).1 := by
  have standing := (watch_standing tidy fits cleared
    (List.prefix_rfl : (moment.watch host wakeups stops programs).log <+: _)).2
  have bound : (inFlight limit (moment.watch host wakeups stops programs).log).length ≤ _ :=
    inFlight_le_strays alone
  refine ⟨standing.open_le.trans (Nat.add_le_add_left bound _), fun calm => ⟨?_, standing.used⟩⟩
  obtain ⟨held, shared⟩ := standing.held
  rw [calm, List.length_nil, Nat.le_zero, List.length_eq_zero_iff] at bound
  rwa [bound, List.filterMap_nil, List.append_nil] at shared

theorem sights_orderly (alone : moment.strays = [])
    {next : Moment σ → List (Nat × α) → List Sight}
    (rest : ∀ after finished more,
      moment.runAll host wakeups stops programs = (after, finished) → after.strays = [] →
      Cleared more → Orderly more (next after finished)) :
    Orderly earlier (moment.sights host wakeups limit stops programs next) := by
  refine Orderly.cons (fun past => watch_standing tidy fits cleared) ?_
  have leaves : Leaves _ (moment.runAll host wakeups stops programs).1 :=
    runAll_leaves tidy fits cleared alone
  split
  next calm =>
    have nobody := List.isEmpty_iff.mp calm
    exact rest _ _ _ rfl nobody (leaves.2 nobody)
  next => exact orderly_nil _

end Tidiness

end Moment

end WebHarvest
