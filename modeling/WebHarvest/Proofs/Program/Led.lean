import Mathlib.Algebra.Order.BigOperators.Group.List
import WebHarvest.Proofs.Program.Scene
import WebHarvest.Proofs.Program.Within

/-!
# Where a program is led by what it does

The deeds of one program, taken out of the log of all, lead it from where it began to where it is.
Its time passes only while it sleeps.
-/

set_option autoImplicit false

namespace WebHarvest

def Deed.span : Deed → Int
  | .sleeps delay => delay
  | _ => 0

def slept (deeds : List Deed) : Int := (deeds.map Deed.span).sum

section Slept

variable (deed : Deed) (deeds more : List Deed)

@[simp] theorem slept_nil : slept [] = 0 := rfl

@[simp] theorem slept_cons : slept (deed :: deeds) = deed.span + slept deeds :=
  List.sum_cons

@[simp] theorem slept_append : slept (deeds ++ more) = slept deeds + slept more := by
  rw [slept, List.map_append, List.sum_append, slept, slept]

end Slept

theorem slept_nonneg {deeds : List Deed} (forward : ∀ deed ∈ deeds, 0 ≤ deed.span) :
    0 ≤ slept deeds :=
  List.sum_nonneg (List.forall_mem_map.mpr forward)

section Spans

variable (request : Request) (reply : request.Reply) (delay : Int)

@[simp] theorem Deed.span_asks : (Deed.asks request).span = 0 := rfl

@[simp] theorem Deed.span_hears : (Deed.hears request reply).span = 0 := rfl

@[simp] theorem Deed.span_sleeps : (Deed.sleeps delay).span = delay := rfl

@[simp] theorem Deed.span_ends : Deed.ends.span = 0 := rfl

end Spans

/-- The entries of a task that has done this from a time on. -/
def stamp (task : Nat) : Int → List Deed → List Entry
  | _, [] => []
  | time, deed :: deeds => ⟨time, task, deed⟩ :: stamp task (time + deed.span) deeds

theorem stamp_append (task : Nat) (time : Int) (deeds more : List Deed) :
    stamp task time (deeds ++ more) =
      stamp task time deeds ++ stamp task (time + slept deeds) more := by
  induction deeds generalizing time with
  | nil => rw [List.nil_append, slept_nil, Int.add_zero]; rfl
  | cons deed deeds ih =>
      rw [List.cons_append, stamp, stamp, ih, slept_cons, List.cons_append, Int.add_assoc]

theorem stamp_of_still {task : Nat} {time : Int} {deeds : List Deed}
    (still : ∀ deed ∈ deeds, deed.span = 0) :
    stamp task time deeds = deeds.map fun deed => ⟨time, task, deed⟩ := by
  induction deeds with
  | nil => rfl
  | cons deed deeds ih =>
      rw [List.forall_mem_cons] at still
      rw [stamp, still.1, Int.add_zero, ih still.2, List.map_cons]

theorem mem_stamp {task : Nat} {time : Int} {deeds : List Deed}
    (forward : ∀ deed ∈ deeds, 0 ≤ deed.span) {entry : Entry}
    (member : entry ∈ stamp task time deeds) :
    entry.task = task ∧ entry.deed ∈ deeds ∧ time ≤ entry.time ∧
      entry.time ≤ time + slept deeds := by
  induction deeds generalizing time with
  | nil => cases member
  | cons deed deeds ih =>
      rw [List.forall_mem_cons] at forward
      have rest := slept_nonneg forward.2
      rw [slept_cons]
      rcases List.mem_cons.mp member with rfl | later
      · exact ⟨rfl, List.mem_cons_self, le_rfl, by have := forward.1; simp only; omega⟩
      · obtain ⟨own, isDeed, after, before⟩ := ih forward.2 later
        exact ⟨own, List.mem_cons_of_mem _ isDeed, by have := forward.1; omega, by omega⟩

namespace Program

variable {α β : Type}

/-- From a time on, the deeds lead the program to what is left of it. To some requests the reply
comes at once. -/
inductive Led (atOnce : Request → Prop) : Int → Program α → List Deed → Program α → Prop where
  | here {time : Int} {program : Program α} : Led atOnce time program [] program
  | atOnce {time : Int} {request : Request} {next : request.Reply → Program α}
      {reply : request.Reply} {deeds : List Deed} {last : Program α}
      (sound : request.Sound time reply) (rest : Led atOnce time (next reply) deeds last) :
      Led atOnce time (.ask request next) (.asks request :: .hears request reply :: deeds) last
  | later {time delay : Int} {request : Request} {next : request.Reply → Program α}
      {reply : request.Reply} {deeds : List Deed} {last : Program α} (slow : ¬ atOnce request)
      (waits : 0 ≤ delay) (sound : request.Sound (time + delay) reply)
      (rest : Led atOnce (time + delay) (next reply) deeds last) :
      Led atOnce time (.ask request next)
        (.asks request :: .sleeps delay :: .hears request reply :: deeds) last
  | again {time delay : Int} {request : Request} {next : request.Reply → Program α}
      {deeds : List Deed} {last : Program α}
      (slot : ∃ scope target, request = .takeSlot scope target) (waits : 0 ≤ delay)
      (rest : Led atOnce (time + delay) (.ask request next) deeds last) :
      Led atOnce time (.ask request next) (.asks request :: .sleeps delay :: deeds) last

namespace Led

variable {atOnce : Request → Prop} {time : Int} {program middle last : Program α}
variable {deeds more : List Deed}

theorem trans (first : Led atOnce time program deeds middle)
    (second : Led atOnce (time + slept deeds) middle more last) :
    Led atOnce time program (deeds ++ more) last := by
  induction first with
  | here => simpa using second
  | atOnce sound _ ih => exact .atOnce sound (ih (by simpa using second))
  | later slow waits sound _ ih =>
      exact .later slow waits sound (ih (by simpa [Int.add_assoc] using second))
  | again slot waits _ ih =>
      exact .again slot waits (ih (by simpa [Int.add_assoc] using second))

theorem forward (led : Led atOnce time program deeds last) : ∀ deed ∈ deeds, 0 ≤ deed.span := by
  induction led with
  | here => exact fun _ member => by cases member
  | atOnce _ _ ih => simpa using ih
  | later _ waits _ _ ih => simpa [waits] using ih
  | again _ waits _ ih => simpa [waits] using ih

theorem within {allowed : Request → Prop} {good : α → Prop} {bound : Nat}
    (led : Led atOnce time program deeds last) (within : program.Within allowed good bound) :
    last.Within allowed good bound := by
  induction led with
  | here => exact within
  | atOnce sound _ ih =>
      cases within with
      | ask _ goesOn => exact ih ((goesOn _ _ sound).mono (Nat.le_succ _))
  | later _ _ sound _ ih =>
      cases within with
      | ask _ goesOn => exact ih ((goesOn _ _ sound).mono (Nat.le_succ _))
  | again _ _ _ ih => exact ih within

theorem asks {allowed : Request → Prop} {good : α → Prop} {bound : Nat}
    (led : Led atOnce time program deeds last) (within : program.Within allowed good bound)
    {request : Request} (asked : Deed.asks request ∈ deeds) : allowed request := by
  induction led generalizing bound with
  | here => cases asked
  | atOnce sound _ ih =>
      cases within with
      | ask own goesOn =>
          simp only [List.mem_cons, Deed.asks.injEq, reduceCtorEq, false_or] at asked
          rcases asked with rfl | asked
          · exact own
          · exact ih (goesOn _ _ sound) asked
  | later _ _ sound _ ih =>
      cases within with
      | ask own goesOn =>
          simp only [List.mem_cons, Deed.asks.injEq, reduceCtorEq, false_or] at asked
          rcases asked with rfl | asked
          · exact own
          · exact ih (goesOn _ _ sound) asked
  | again _ _ _ ih =>
      simp only [List.mem_cons, Deed.asks.injEq, reduceCtorEq, false_or] at asked
      rcases asked with rfl | asked
      · cases within with
        | ask own _ => exact own
      · exact ih within asked

theorem slept_eq_zero {allowed : Request → Prop} {good : α → Prop} {bound : Nat}
    (led : Led atOnce time program deeds last) (within : program.Within allowed good bound)
    (never : ∀ request, allowed request →
      atOnce request ∧ ∀ scope target, request ≠ .takeSlot scope target) :
    slept deeds = 0 := by
  induction led generalizing bound with
  | here => rfl
  | atOnce sound _ ih =>
      cases within with
      | ask _ goesOn => simpa using ih (goesOn _ _ sound)
  | later slow _ _ _ _ =>
      cases within with
      | ask own _ => exact absurd (never _ own).1 slow
  | again slot _ _ _ =>
      obtain ⟨scope, target, same⟩ := slot
      cases within with
      | ask own _ => exact absurd same ((never _ own).2 scope target)

theorem of_done {result : α} (led : Led atOnce time (.done result) deeds last) :
    deeds = [] ∧ last = .done result := by
  cases led
  exact ⟨rfl, rfl⟩

theorem of_prompt {request : Request} {next : request.Reply → Program α} {result : α}
    (led : Led atOnce time (.ask request next) deeds (.done result)) (prompt : atOnce request)
    (other : ∀ scope target, request ≠ .takeSlot scope target) :
    ∃ reply rest, request.Sound time reply ∧
      deeds = .asks request :: .hears request reply :: rest ∧
      Led atOnce time (next reply) rest (.done result) := by
  cases led with
  | atOnce sound rest => exact ⟨_, _, sound, rfl, rest⟩
  | later slow => exact absurd prompt slow
  | again slot =>
      obtain ⟨scope, target, same⟩ := slot
      exact absurd same (other scope target)

theorem of_reply {request : Request} {next : request.Reply → Program α} {result : α}
    (led : Led atOnce time (.ask request next) deeds (.done result))
    (other : ∀ scope target, request ≠ .takeSlot scope target) :
    ∃ waits reply rest, (waits = [] ∨ ∃ delay, 0 ≤ delay ∧ waits = [.sleeps delay]) ∧
      request.Sound (time + slept waits) reply ∧
      deeds = .asks request :: (waits ++ .hears request reply :: rest) ∧
      Led atOnce (time + slept waits) (next reply) rest (.done result) := by
  cases led with
  | atOnce sound rest =>
      refine ⟨[], _, _, Or.inl rfl, ?_, rfl, ?_⟩
      · simpa using sound
      · simpa using rest
  | @later _ delay _ _ _ _ _ _ waits sound rest =>
      refine ⟨[.sleeps delay], _, _, Or.inr ⟨delay, waits, rfl⟩, ?_, rfl, ?_⟩
      · simpa using sound
      · simpa using rest
  | again slot =>
      obtain ⟨scope, target, same⟩ := slot
      exact absurd same (other scope target)

/-- What leads to the end of two programs in a row leads to the end of the first one before. -/
theorem of_bind {next : α → Program β} {result : β}
    (led : Led atOnce time (program.bind next) deeds (.done result)) :
    ∃ before middle after, deeds = before ++ after ∧ Led atOnce time program before (.done middle) ∧
      Led atOnce (time + slept before) (next middle) after (.done result) := by
  -- When the first program has ended, all the deeds are those of the second one.
  have idle : ∀ {time : Int} {deeds : List Deed} (middle : α),
      Led atOnce time ((Program.done middle).bind next) deeds (.done result) →
      ∃ before middle' after, deeds = before ++ after ∧
        Led atOnce time (.done middle) before (.done middle') ∧
        Led atOnce (time + slept before) (next middle') after (.done result) := by
    intro time deeds middle led
    refine ⟨[], middle, deeds, rfl, .here, ?_⟩
    rw [slept_nil, Int.add_zero]
    exact led
  generalize whole : program.bind next = both at led
  generalize ended : Program.done result = final at led
  induction led generalizing program with
  | here =>
      subst ended
      cases program with
      | done middle => exact idle middle (whole ▸ .here)
      | ask request goesOn => cases whole
  | @atOnce time request goesOn reply deeds final sound rest ih =>
      subst ended
      cases program with
      | done middle => exact idle middle (whole ▸ .atOnce sound rest)
      | ask asked others =>
          cases whole
          obtain ⟨before, middle, after, rfl, first, second⟩ := ih rfl rfl
          refine ⟨.asks _ :: .hears _ reply :: before, middle, after, rfl, .atOnce sound first, ?_⟩
          simpa using second
  | @later time delay request goesOn reply deeds final slow waits sound rest ih =>
      subst ended
      cases program with
      | done middle => exact idle middle (whole ▸ .later slow waits sound rest)
      | ask asked others =>
          cases whole
          obtain ⟨before, middle, after, rfl, first, second⟩ := ih rfl rfl
          refine ⟨.asks _ :: .sleeps delay :: .hears _ reply :: before, middle, after, rfl,
            .later slow waits sound first, ?_⟩
          simpa [Int.add_assoc] using second
  | @again time delay request goesOn deeds final slot waits rest ih =>
      subst ended
      cases program with
      | done middle => exact idle middle (whole ▸ .again slot waits rest)
      | ask asked others =>
          cases whole
          obtain ⟨before, middle, after, rfl, first, second⟩ :=
            ih (show (Program.ask request others).bind next = _ from rfl) rfl
          refine ⟨.asks _ :: .sleeps delay :: before, middle, after, rfl,
            .again slot waits first, ?_⟩
          simpa [Int.add_assoc] using second

end Led

end Program

end WebHarvest
