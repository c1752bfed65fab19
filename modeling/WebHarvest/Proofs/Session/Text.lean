import WebHarvest.Proofs.Config.Yields
import WebHarvest.Proofs.Json.Limits
import WebHarvest.Proofs.Session.State

/-!
# The texts of session states

A state of JSON data is written to a text that reads back as the same state, as long as the data is
nested no deeper than the reader allows. What is nested deeper, or has whole numbers that are too
long, can be written, but no text reads back as a state with it.
-/

set_option autoImplicit false

namespace WebHarvest.SessionState

/-- How deep the data in a cookie or in an origin may be nested. The record itself, the list of
records and the state are three containers around it. -/
def depthAllowed : Nat := Json.nestingLimit - 3

/-- JSON data under distinct names, nested at most so many levels deep. -/
structure IsDataRecord (levels : Nat) (record : Record) : Prop where
  distinct : (record.map Prod.fst).Nodup
  data : ∀ entry ∈ record, Json.IsData levels entry.2

section Writing

variable {levels : Nat} {records cookies origins : List Record}

theorem mapM_plainRecord (bounded : levels < Json.depthLimit)
    (data : ∀ record ∈ records, IsDataRecord levels record) :
    records.mapM Json.plainRecord = .ok (records.map Value.record) := by
  induction records with
  | nil => rfl
  | cons record rest ih =>
      obtain ⟨first, others⟩ := List.forall_mem_cons.mp data
      have plain : Json.plainRecord record = .ok (.record record) := by
        have inner : ∀ entry ∈ record, (do
            return (entry.1, ← Json.plainWithin Json.depthLimit entry.2) :
              Except Json.Fault (String × Value)) = .ok entry := by
          intro entry member
          rw [(first.data entry member).plain bounded]
          rfl
        rw [Json.plainRecord, Json.mapM_id inner]
        rfl
      rw [List.mapM_cons, plain, ih others]
      rfl

theorem isData_records (data : ∀ record ∈ records, IsDataRecord levels record) :
    Json.IsData (levels + 2) (.list (records.map Value.record)) := by
  refine .list fun item member => ?_
  obtain ⟨record, known, rfl⟩ := List.mem_map.mp member
  exact .map (data record known).distinct (data record known).data

/-- Cookies and origins of JSON data have a text. They come out of it as they went in, unless they
are nested too deep. -/
theorem exists_text (bounded : levels < Json.depthLimit)
    (cookiesData : ∀ record ∈ cookies, IsDataRecord levels record)
    (originsData : ∀ record ∈ origins, IsDataRecord levels record) :
    ∃ text, SessionState.text { cookies, origins } = .ok text ∧
      (levels ≤ depthAllowed → ofText text = .ok { cookies, origins }) := by
  let whole : Record := [("cookies", .list (cookies.map Value.record)),
    ("origins", .list (origins.map Value.record))]
  have data : Json.IsData (levels + 3) (.record whole) :=
    @Json.IsData.map (levels + 2) whole (by simp [whole]) (List.forall_mem_cons.mpr
      ⟨isData_records cookiesData, List.forall_mem_singleton.mpr (isData_records originsData)⟩)
  obtain ⟨portable, same⟩ := data.portable
  obtain ⟨text, written, conveys⟩ : ∃ text, Json.write Json.sessionStyle (.record whole) = .ok text ∧
      Json.Conveys Json.sessionStyle .guarded (levels + 3) _ text.toList :=
    portable.conveyed Json.isReadable_ledgerLayout 0
  rw [same] at conveys
  refine ⟨text, ?_, fun shallow => ?_⟩
  · unfold SessionState.text
    rw [mapM_plainRecord bounded cookiesData, mapM_plainRecord bounded originsData]
    exact congrArg (Except.mapError Failure.notJson) written
  · have within : levels + 3 ≤ Json.nestingLimit := by
      unfold depthAllowed Json.nestingLimit at *
      omega
    have accepts : check .json (.record whole) = .accepted { cookies, origins } :=
      check_of_given (.inl rfl) (.inl rfl)
    rw [ofText, conveys.read fun _ => within]
    exact congrArg (Checked.validated "SessionState") accepts

theorem isLossless_of_data
    (cookiesData : ∀ record ∈ cookies, IsDataRecord depthAllowed record)
    (originsData : ∀ record ∈ origins, IsDataRecord depthAllowed record) :
    IsLossless { cookies, origins } := by
  obtain ⟨text, written, reads⟩ := exists_text (by decide) cookiesData originsData
  exact ⟨text, written, reads le_rfl⟩

end Writing

section Reading

variable {levels : Nat} {form : InputForm}

theorem record_yields {value : Value} (modest : Json.IsModest (levels + 1) value) :
    (Check.record form value).Yields fun record =>
      ∀ entry ∈ record, Json.IsModest levels entry.2 := by
  cases value with
  | map entries => exact Check.record_yields modest.entries
  | _ => exact Checked.yields_fail _

theorem records_yields {value : Value} (modest : Json.IsModest (levels + 2) value) :
    (Check.list form (Check.record form) value).Yields fun records =>
      ∀ record ∈ records, ∀ entry ∈ record, Json.IsModest levels entry.2 := by
  cases value with
  | list items => exact Check.list_yields fun item member => record_yields (modest.items item member)
  | tuple items =>
      cases modest with
      | scalar _ noTuple _ => exact absurd rfl (noTuple items)
  | _ => exact Checked.yields_fail _

theorem check_yields {value : Value} (modest : Json.IsModest (levels + 3) value) :
    (check form value).Yields fun state =>
      (∀ record ∈ state.cookies, ∀ entry ∈ record, Json.IsModest levels entry.2) ∧
        ∀ record ∈ state.origins, ∀ entry ∈ record, Json.IsModest levels entry.2 := by
  cases value with
  | map entries =>
      have records (name : String) :
          (Check.field entries name (Check.list form (Check.record form)) (.accepted [])).Yields
            fun records => ∀ record ∈ records, ∀ entry ∈ record, Json.IsModest levels entry.2 :=
        Check.field_yields (fun entry member => records_yields (modest.entries entry member))
          (Checked.yields_accepted nofun)
      refine .seq (records "origins") (.map ((records "cookies").mono ?_))
      exact fun cookies cookiesShallow origins originsShallow => ⟨cookiesShallow, originsShallow⟩
  | _ => exact Checked.yields_fail _

theorem ofText_modest {text : String} {state : SessionState} (reads : ofText text = .ok state) :
    (∀ record ∈ state.cookies, ∀ entry ∈ record, Json.IsModest depthAllowed entry.2) ∧
      ∀ record ∈ state.origins, ∀ entry ∈ record, Json.IsModest depthAllowed entry.2 := by
  unfold ofText at reads
  cases parsed : Json.read .guarded text with
  | error fault =>
      rw [parsed] at reads
      cases reads
  | ok value =>
      rw [parsed] at reads
      dsimp only at reads
      cases checked : check .json value with
      | rejected | broken =>
          rw [checked] at reads
          cases reads
      | accepted found =>
          rw [checked] at reads
          obtain rfl := Except.ok.inj reads
          have modest : Json.IsModest (depthAllowed + 3) value := Json.isModest_read parsed
          exact check_yields modest found checked

end Reading

end WebHarvest.SessionState
