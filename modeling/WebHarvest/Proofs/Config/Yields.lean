import WebHarvest.Proofs.Outcome
import WebHarvest.Proofs.RateLimit.Quotas

/-!
# What a check lets through

A property of all that a check accepts follows from the same for the checks that it is made of.
-/

set_option autoImplicit false

namespace WebHarvest

namespace Checked

variable {α β : Type}

/-- Whatever the check accepts has the property. -/
def Yields (outcome : Checked α) (property : α → Prop) : Prop :=
  ∀ result, outcome = .accepted result → property result

variable {property : α → Prop}

theorem yields_accepted {result : α} (holds : property result) :
    (accepted result).Yields property := by
  rintro _ ⟨⟩
  exact holds

theorem yields_fail (cause : IssueCause) : (fail cause).Yields property := nofun

theorem yields_broken (failure : Failure) : (broken failure).Yields property := nofun

theorem Yields.mono {outcome : Checked α} {weaker : α → Prop} (yields : outcome.Yields property)
    (implies : ∀ result, property result → weaker result) : outcome.Yields weaker :=
  fun result same => implies result (yields result same)

theorem Yields.under {outcome : Checked α} (yields : outcome.Yields property) (step : PlaceStep) :
    (outcome.under step).Yields property :=
  fun result same => yields result (under_eq_accepted_iff.mp same)

theorem Yields.map {outcome : Checked α} {f : α → β} {image : β → Prop}
    (yields : outcome.Yields fun result => image (f result)) : (f <$> outcome).Yields image := by
  intro result same
  obtain ⟨given, accepts, rfl⟩ := map_eq_accepted_iff.mp same
  exact yields given accepts

/-- A model is made of what its fields are found to be. -/
theorem Yields.seq {make : Checked (α → β)} {field : Checked α} {whole : β → Prop}
    (given : field.Yields property)
    (yields : make.Yields fun f => ∀ value, property value → whole (f value)) :
    (make <*> field).Yields whole := by
  intro result same
  obtain ⟨f, value, makes, accepts, rfl⟩ := seq_eq_accepted_iff.mp same
  exact yields f makes value (given value accepts)

/-- A field may be left out of sight. -/
theorem Yields.skip {make : Checked (α → β)} {field : Checked α} {whole : β → Prop}
    (yields : make.Yields fun f => ∀ value, whole (f value)) : (make <*> field).Yields whole :=
  .seq (fun _ _ => trivial) (yields.mono fun _ holds value _ => holds value)

theorem Yields.andThen {outcome : Checked α} {next : α → Checked β} {whole : β → Prop}
    (yields : ∀ result, (next result).Yields whole) : (outcome.andThen next).Yields whole := by
  cases outcome with
  | accepted result => exact yields result
  | rejected | broken => exact nofun

theorem yields_all {outcomes : List (Checked α)}
    (each : ∀ outcome ∈ outcomes, outcome.Yields property) :
    (all outcomes).Yields fun results => ∀ result ∈ results, property result := by
  induction outcomes with
  | nil => exact yields_accepted nofun
  | cons outcome rest ih =>
      obtain ⟨first, others⟩ := List.forall_mem_cons.mp each
      rw [all]
      exact .seq (ih others) (.map (first.mono fun result holds results hold =>
        List.forall_mem_cons.mpr ⟨holds, hold⟩))

end Checked

namespace Check

open Checked (Yields)

variable {α : Type} {property : α → Prop}

theorem mem_of_lookup? {entries : List (Value × Value)} {name : String} {value : Value}
    (found : Value.lookup? name entries = some value) : ∃ entry ∈ entries, entry.2 = value := by
  induction entries with
  | nil => cases found
  | cons first rest ih =>
      have further (found : Value.lookup? name rest = some value) :
          ∃ entry ∈ first :: rest, entry.2 = value := by
        obtain ⟨entry, member, same⟩ := ih found
        exact ⟨entry, List.mem_cons_of_mem _ member, same⟩
      unfold Value.lookup? at found
      split at found
      · cases found
      · rename_i same
        cases same
        split at found
        · exact ⟨_, List.mem_cons_self, Option.some.inj found⟩
        · exact further found
      · rename_i same
        cases same
        exact further found

theorem field_yields {entries : List (Value × Value)} {name : String} {check : Value → Checked α}
    {default : Checked α} (given : ∀ entry ∈ entries, (check entry.2).Yields property)
    (absent : default.Yields property) : (field entries name check default).Yields property := by
  unfold field
  split
  · rename_i found
    obtain ⟨entry, member, rfl⟩ := mem_of_lookup? found
    exact (given entry member).under _
  · exact absent

theorem nullable_yields {check : Value → Checked α}
    (given : ∀ value, (check value).Yields property) (value : Value) :
    (nullable check value).Yields fun found => ∀ result, found = some result → property result := by
  cases value with
  | null => exact Checked.yields_accepted nofun
  | _ =>
      refine Yields.map ((given _).mono fun result holds other same => ?_)
      exact Option.some.inj same ▸ holds

theorem natAtLeast_yields (bound : Nat) (value : Value) :
    (natAtLeast bound value).Yields (bound ≤ ·) := by
  refine Yields.map fun result accepts => ?_
  have least := of_decide_eq_true (Checked.ensure_eq_accepted_iff.mp accepts).2
  omega

theorem list_yields {form : InputForm} {check : Value → Checked α} {items : List Value}
    (each : ∀ item ∈ items, (check item).Yields property) :
    (list form check (.list items)).Yields fun results => ∀ result ∈ results, property result := by
  refine Checked.yields_all fun outcome member => ?_
  obtain ⟨index, inside, rfl⟩ := List.mem_mapIdx.mp member
  exact (each _ (List.getElem_mem inside)).under _

/-- A record holds what a mapping holds. -/
theorem record_yields {form : InputForm} {entries : List (Value × Value)}
    {property : Value → Prop} (each : ∀ entry ∈ entries, property entry.2) :
    (Check.record form (.map entries)).Yields fun record =>
      ∀ entry ∈ record, property entry.2 := by
  refine Checked.yields_all fun outcome member => ?_
  obtain ⟨⟨key, value⟩, known, rfl⟩ := List.mem_map.mp member
  have own : (Check.any value).Yields property := Checked.yields_accepted (each _ known)
  exact .seq (own.under _) (.map fun name _ value holds => holds)

end Check

end WebHarvest
