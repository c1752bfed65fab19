import WebHarvest.Proofs.Outcome
import WebHarvest.Session.State

/-!
# Sources of session states

A source whose cookies and origins are lists of records gives a state with just these.
-/

set_option autoImplicit false

namespace WebHarvest

namespace SessionState

/-- What a source gives under a name: a list of records, or nothing, which counts as no records. -/
def Gives (entries : List (Value × Value)) (name : String) (records : List Record) : Prop :=
  Value.lookup? name entries = some (.list (records.map Value.record)) ∨
    Value.lookup? name entries = none ∧ records = []

/-- A state that is written to a text that reads back as the same state. -/
def IsLossless (state : SessionState) : Prop :=
  ∃ text, state.text = .ok text ∧ ofText text = .ok state

section Sources

theorem check_given {form : InputForm} {entries : List (Value × Value)} {name : String}
    {records : List Record} (gives : Gives entries name records) :
    Check.field entries name (Check.list form (Check.record form)) (.accepted []) =
      .accepted records := by
  unfold Check.field
  rcases gives with given | ⟨absent, rfl⟩
  · rw [given]
    dsimp only
    rw [Check.list_record]
    rfl
  · rw [absent]

theorem check_of_given {form : InputForm} {entries : List (Value × Value)}
    {cookies origins : List Record} (cookiesGiven : Gives entries "cookies" cookies)
    (originsGiven : Gives entries "origins" origins) :
    check form (.map entries) = .accepted { cookies, origins } := by
  unfold check Check.fields
  simp only [Checked.andThen, check_given cookiesGiven, check_given originsGiven]
  rfl

theorem ofValue_of_given {entries : List (Value × Value)} {cookies origins : List Record}
    (cookiesGiven : Gives entries "cookies" cookies)
    (originsGiven : Gives entries "origins" origins) :
    ofValue (.map entries) = .ok { cookies, origins } := by
  rw [ofValue, check_of_given cookiesGiven originsGiven]
  rfl

end Sources

end SessionState

end WebHarvest
