import WebHarvest.Proofs.Files.Append
import WebHarvest.Proofs.Json.Ascii
import WebHarvest.Proofs.Program.OnFiles
import WebHarvest.Session.Cookies

/-!
# Cookies that are saved can be loaded

What is written of the cookies of one browser gives another browser the same cookies: the list is
added as if it had been passed itself, down to the order of the keys. This holds of cookies with any
JSON data in them, and whatever the browsers reply.
-/

set_option autoImplicit false

namespace WebHarvest

namespace Json

/-- JSON data, nested as deep as may be: whole numbers have no more digits than numerals may have,
and a mapping has a key once. -/
inductive IsPure : Value → Prop where
  | null : IsPure .null
  | bool {b : Bool} : IsPure (.bool b)
  | int {n : Int} (short : n.natAbs < 10 ^ Numeral.digitLimit) : IsPure (.int n)
  | float {x : Double} (finite : x.isFinite = true) : IsPure (.float x)
  | text {s : String} : IsPure (.text s)
  | list {items : List Value} (inner : ∀ item ∈ items, IsPure item) : IsPure (.list items)
  | record {record : Record} (distinct : (record.map Prod.fst).Nodup)
      (inner : ∀ entry ∈ record, IsPure entry.2) : IsPure (.record record)

theorem fitsInt_plain {n : Int} (short : n.natAbs < 10 ^ Numeral.digitLimit) :
    FitsInt .plain n := by
  have length : (Nat.toDigits 10 n.natAbs).length ≤ Numeral.digitLimit :=
    (Nat.length_toDigits_le_iff (by decide) (by decide)).mpr short
  simpa [FitsInt, FitsWhole] using length

theorem IsPure.portable {value : Value} (isPure : IsPure value) :
    IsPortable .plain 0 value ∧ plainTexts value = value := by
  have unguarded {condition : Prop} (guarded : Dialect.plain = .guarded) : condition := by
    cases guarded
  induction isPure with
  | null => exact ⟨.null, rfl⟩
  | bool => exact ⟨.bool, rfl⟩
  | int short => exact ⟨.int (fitsInt_plain short), rfl⟩
  | float finite => exact ⟨.float finite, rfl⟩
  | text => exact ⟨.text, rfl⟩
  | list _ ih =>
      exact ⟨.list unguarded fun item member => (ih item member).1,
        plainTexts_list_of_plain fun item member => (ih item member).2⟩
  | record distinct _ ih =>
      exact ⟨isPortable_record distinct unguarded fun entry member => (ih entry member).1,
        plainTexts_record_of_plain fun entry member => (ih entry member).2⟩

end Json

namespace Session

section Texts

variable {cookies : List Value}

/-- Cookies of JSON data have a text, which gives them back. -/
theorem cookiesText_reads (isPure : ∀ cookie ∈ cookies, Json.IsPure cookie) :
    ∃ text, cookiesText (.list cookies) = .ok text ∧
      Json.read .plain text = .ok (.list cookies) := by
  obtain ⟨portable, same⟩ := (Json.IsPure.list isPure).portable
  obtain ⟨text, written, reads, -⟩ : ∃ text, Json.write Json.cookieStyle (.list cookies) =
      .ok text ∧ Json.read .plain text = .ok (Json.plainTexts (.list cookies)) ∧ _ :=
    portable.read_write Json.isReadable_cookieLayout nofun
  refine ⟨text, ?_, same ▸ reads⟩
  rw [cookiesText, written]

theorem cookiesText_ascii {value : Value} {text : String} (written : cookiesText value = .ok text) :
    Json.IsAscii text.toList := by
  unfold cookiesText at written
  split at written
  · rename_i whole
    cases written
    exact Json.isAscii_writeAt Json.keepsAscii_cookieStyle value whole
  · cases written

-- Two units for a character outside the basic plane, and every control has an escape.
example : cookiesText (.list [.record [("🍪", .text "é\x01\"\n"), ("n", .int (-1))]]) = .ok
    ("[\n  \x7b\n    \"\\ud83c\\udf6a\": \"\\u00e9\\u0001\\\"\\n\",\n" ++
      "    \"n\": -1\n  \x7d\n]") := by
  cbv

end Texts

section Operations

variable {path text : String} {cookies : List Value} {files after : FileTree}
  {calls : List Browser.Exchange}

/-- The cookies of a browser come out of a save once their text is in the file. -/
theorem saveCookies_runsOn (written : cookiesText (.list cookies) = .ok text)
    {outcome : Except Failure Value} :
    (saveCookies (some path)).RunsOn files [(.cookies none, .ok (.list cookies))] outcome after ↔
      files.write path text = .ok after ∧ outcome = .ok (.list cookies) ∨
      ∃ failure, files.write path text = .error failure ∧ outcome = .error failure ∧
        after = files := by
  unfold saveCookies
  dsimp only
  rw [Action.runsOn_browser_bind, written]
  change (Action.writeFile path text >>= _).RunsOn files [] outcome after ↔ _
  rw [Action.runsOn_writeFile_bind]
  refine or_congr ⟨?_, ?_⟩ (by simp only [true_and])
  · rintro ⟨middle, wrote, rest⟩
    obtain ⟨-, rfl, rfl⟩ := Action.runsOn_settle.mp rest
    exact ⟨wrote, rfl⟩
  · rintro ⟨wrote, rfl⟩
    exact ⟨after, wrote, .done⟩

/-- What a browser is asked when cookies are added to it. -/
def Adds (cookies : Value) (files : FileTree) (calls : List Browser.Exchange)
    (outcome : Except Failure Unit) (after : FileTree) : Prop :=
  ∃ reply, calls = [(.addCookies cookies, reply)] ∧ outcome = reply.map (fun _ => ()) ∧
    after = files

theorem add_runsOn {cookies : Value} {outcome : Except Failure Unit} :
    (do let _ ← Action.browser (.addCookies cookies) : Action Unit).RunsOn files calls outcome
      after ↔ Adds cookies files calls outcome after := by
  rw [Action.runsOn_bind]
  simp only [Action.runsOn_browser]
  constructor
  · rintro (⟨before, result, middle, later, ⟨rfl, rfl⟩, rest, rfl⟩ | ⟨failure, ⟨rfl, rfl⟩, rfl⟩)
    · obtain ⟨rfl, rfl, rfl⟩ := Action.runsOn_settle.mp rest
      exact ⟨.ok result, rfl, rfl, rfl⟩
    · exact ⟨.error failure, rfl, rfl, rfl⟩
  · rintro ⟨reply, rfl, rfl, rfl⟩
    cases reply with
    | ok result => exact .inl ⟨_, result, after, [], ⟨rfl, rfl⟩, .done, rfl⟩
    | error failure => exact .inr ⟨failure, ⟨rfl, rfl⟩, rfl⟩

theorem loadCookies_list_runsOn {outcome : Except Failure Unit} :
    (loadCookies (.list cookies)).RunsOn files calls outcome after ↔
      Adds (.list cookies) files calls outcome after := add_runsOn

theorem loadCookies_text_runsOn (held : files.read path = .ok text)
    (reads : Json.read .plain text = .ok (.list cookies)) {outcome : Except Failure Unit} :
    (loadCookies (.text path)).RunsOn files calls outcome after ↔
      Adds (.list cookies) files calls outcome after := by
  unfold loadCookies readCookies
  dsimp only
  rw [bind_assoc, Action.runsOn_readFile_bind held, reads]
  exact add_runsOn

end Operations

/-- Cookies of JSON data have a text, of ASCII only. A save writes it to the file and returns the
cookies, unless the file cannot be written. As long as the file is left as a save has made it,
loading it does to a browser what loading the list itself does: the list is added to it. -/
theorem cookies_restored (path : String) {cookies : List Value}
    (isPure : ∀ cookie ∈ cookies, Json.IsPure cookie) :
    ∃ text, cookiesText (.list cookies) = .ok text ∧ Json.IsAscii text.toList ∧
      (∀ files outcome after,
        (saveCookies (some path)).RunsOn files [(.cookies none, .ok (.list cookies))] outcome after ↔
          files.write path text = .ok after ∧ outcome = .ok (.list cookies) ∨
          ∃ failure, files.write path text = .error failure ∧ outcome = .error failure ∧
            after = files) ∧
      ∀ files saved after,
        (saveCookies (some path)).RunsOn files [(.cookies none, .ok (.list cookies))] (.ok saved)
          after →
        saved = .list cookies ∧
          ∀ later : FileTree, later.read path = after.read path → ∀ calls outcome last,
            ((loadCookies (.text path)).RunsOn later calls outcome last ↔
              Adds (.list cookies) later calls outcome last) ∧
            ((loadCookies (.list cookies)).RunsOn later calls outcome last ↔
              Adds (.list cookies) later calls outcome last) := by
  obtain ⟨text, written, reads⟩ := cookiesText_reads isPure
  refine ⟨text, written, cookiesText_ascii written, fun _ _ _ => saveCookies_runsOn written, ?_⟩
  intro files saved after run
  rcases (saveCookies_runsOn written).mp run with ⟨wrote, same⟩ | ⟨failure, -, failed, -⟩
  · refine ⟨Except.ok.inj same, fun later kept calls outcome last => ⟨?_, loadCookies_list_runsOn⟩⟩
    exact loadCookies_text_runsOn (kept.trans (FileTree.read_of_write wrote)) reads
  · cases failed

/-- A cookie with what is easily lost: quotes, controls, characters outside ASCII and outside the
basic plane, an empty key, a number below zero, and containers within containers. -/
def oddCookie : Value := .record [
  ("name", .text "\"a\\b\"\n\t\x01\x7f"),
  ("value", .text "é🍪"),
  ("expires", .int (-1)),
  ("", .list [.null, .bool true, .list [], .record [("🍪", .text "")]])]

theorem isPure_oddCookie : Json.IsPure oddCookie := by
  have limit : (-1 : Int).natAbs < 10 ^ Numeral.digitLimit :=
    Nat.one_lt_pow (by decide) (by decide)
  refine .record (by decide) ?_
  simp only [List.forall_mem_cons, List.not_mem_nil, false_implies, implies_true, and_true]
  refine ⟨.text, .text, .int limit, .list ?_⟩
  simp only [List.forall_mem_cons, List.not_mem_nil, false_implies, implies_true, and_true]
  exact ⟨.null, .bool, .list nofun,
    .record (by decide) (List.forall_mem_singleton.mpr .text)⟩

theorem cookies_restored_odd :
    (∀ cookie ∈ [oddCookie], Json.IsPure cookie) ∧
      ∃ after, (saveCookies (some "jar.json")).RunsOn {}
          [(.cookies none, .ok (.list [oddCookie]))] (.ok (.list [oddCookie])) after ∧
        (loadCookies (.text "jar.json")).RunsOn after
          [(.addCookies (.list [oddCookie]), .ok .null)] (.ok ()) after := by
  have isPure : ∀ cookie ∈ [oddCookie], Json.IsPure cookie :=
    List.forall_mem_singleton.mpr isPure_oddCookie
  obtain ⟨text, -, -, saves, loads⟩ := cookies_restored "jar.json" isPure
  have reached : FileTree.target {} "jar.json" = .ok (["jar.json"], "") :=
    FileTree.target_eq_ok_iff.mpr ⟨by decide +kernel, by decide +kernel, .inl ⟨rfl, rfl⟩⟩
  have run := (saves {} _ _).mpr (.inl ⟨FileTree.write_of_target reached text, rfl⟩)
  obtain ⟨-, again⟩ := loads _ _ _ run
  exact ⟨isPure, _, run, (again _ rfl _ _ _).1.mpr ⟨.ok .null, rfl, rfl, rfl⟩⟩

end Session

end WebHarvest
