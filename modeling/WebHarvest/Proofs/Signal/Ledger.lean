import WebHarvest.Proofs.Files.Append
import WebHarvest.Proofs.Json.Data
import WebHarvest.Proofs.Signal.Emitter
import WebHarvest.Proofs.Timestamp

/-!
# Ledgers read back

The line of a signal holds no line end but its last character, and it is read back as the same
signal. So a ledger that holds whole lines and then the lines of some signals is read as what it
held before, followed by these signals.
-/

set_option autoImplicit false

namespace WebHarvest

/-- Data that a signal can carry: JSON data by distinct keys. -/
structure Record.IsPayload (record : Record) : Prop where
  distinct : (record.map Prod.fst).Nodup
  data : ∀ entry ∈ record, Json.IsData (Json.nestingLimit - 2) entry.2

namespace Signal

/-- A signal as an emitter makes them: the time of a clock, JSON data, and a number that is not too
long to be read. -/
structure IsRecordable (signal : Signal) : Prop where
  number : (toString signal.sequence).length ≤ Numeral.digitLimit
  clock : signal.timestamp.IsClock
  payload : signal.payload.IsPayload

section Lines

variable {signal : Signal}

def entries (signal : Signal) : Record :=
  signal.header ++ [("payload", .record signal.payload)]

/-- The entries of a ledger line are checked to the signal that they are of. -/
theorem check_entries (clock : signal.timestamp.IsClock) (now : Timestamp) :
    check .json now (.record signal.entries) = .accepted signal := by
  have kind : Check.enumeration SignalKind.all SignalKind.name (.text signal.kind.name) =
      .accepted signal.kind := by
    cases signal.kind <;> rfl
  let values := signal.entries.map fun entry => (Value.text entry.1, entry.2)
  have sequence : Check.required values "sequence" Check.int = .accepted signal.sequence := rfl
  have kindGiven : Check.required values "signal_type"
      (Check.enumeration SignalKind.all SignalKind.name) = .accepted signal.kind := by
    change (Check.enumeration _ _ (.text signal.kind.name)).under _ = _
    rw [kind]
    rfl
  have timestamp : Check.field values "timestamp" Timestamp.check (.accepted now) =
      .accepted signal.timestamp := by
    change (Timestamp.check (.text signal.timestamp.ledgerText)).under _ = _
    rw [Timestamp.check_ledgerText clock]
    rfl
  have source : Check.required values "source" Check.text = .accepted signal.source := rfl
  have payload : Check.field values "payload" (Check.record .json) (.accepted []) =
      .accepted signal.payload := by
    change (Check.record .json (.record signal.payload)).under _ = _
    rw [Check.record_record]
    rfl
  change (mk <$> Check.required values "sequence" Check.int <*>
    Check.required values "signal_type" (Check.enumeration SignalKind.all SignalKind.name) <*>
    Check.field values "timestamp" Timestamp.check (.accepted now) <*>
    Check.required values "source" Check.text <*>
    Check.field values "payload" (Check.record .json) (.accepted [])) = _
  rw [sequence, kindGiven, timestamp, source, payload]
  rfl

theorem plainRecord_payload {record : Record} (payload : record.IsPayload) :
    Json.plainRecord record = .ok (.record record) := by
  unfold Json.plainRecord
  rw [Json.mapM_id]
  · rfl
  · intro entry member
    obtain ⟨key, value⟩ := entry
    simp only [(payload.data (key, value) member).plain (by decide : _ < Json.depthLimit)]
    rfl

/-- A ledger line is one line of text, from brace to brace, that reads back as its signal. -/
structure IsLineOf (text : String) (signal : Signal) : Prop where
  written : signal.line = .ok (text ++ "\n")
  reads : ∀ now, ofLine now text = .ok signal
  unbroken : ∀ c ∈ text.toList, 0x20 ≤ c.toNat
  braced : ∃ inner, text.toList = '\x7b' :: (inner ++ ['\x7d'])

theorem IsRecordable.line (recordable : signal.IsRecordable) :
    ∃ text, IsLineOf text signal := by
  have distinct : (signal.entries.map Prod.fst).Nodup := by
    change ["sequence", "signal_type", "timestamp", "source", "payload"].Nodup
    decide
  have data : ∀ entry ∈ signal.entries, Json.IsData (Json.nestingLimit - 1) entry.2 := by
    intro entry member
    simp only [entries, header, List.cons_append, List.nil_append, List.mem_cons,
      List.not_mem_nil, or_false] at member
    rcases member with rfl | rfl | rfl | rfl | rfl
    · exact .int recordable.number
    · exact .text
    · exact .text
    · exact .text
    · exact .map recordable.payload.distinct recordable.payload.data
  have readable : Json.IsReadable Json.ledgerStyle.numbers := Json.isReadable_ledgerLayout
  obtain ⟨text, inner, written, braced, conveys⟩ :=
    Json.record_conveyed readable data distinct (List.cons_ne_nil _ _) 0
  refine ⟨text, ?_, fun now => ?_, conveys.unbroken rfl, inner, braced⟩
  · unfold Signal.line
    rw [plainRecord_payload recordable.payload]
    change Except.mapError _ (do
      return (← Json.writeAt Json.ledgerStyle 0 (.record signal.entries)) ++ "\n") = _
    rw [written]
    rfl
  · unfold ofLine
    rw [conveys.read fun _ => Nat.le_refl _]
    dsimp only
    rw [check_entries recordable.clock]
    rfl

end Lines

section Texts

variable {now : Timestamp}

/-- A text that holds whole lines only. -/
def HoldsLines (text : String) : Prop :=
  text = "" ∨ ∃ front c, text.toList = front ++ [c] ∧ isLineEnd c = true

/-- The texts that the lines of a ledger come to, without the blank ones. -/
def linesOf (cs : List Char) : List String :=
  (((cs.splitOnP isLineEnd).map String.ofList).map Text.trim).filter fun line => !line.isEmpty

theorem linesOf_nil : linesOf [] = [] := rfl

theorem linesOf_append_lineEnd (cs : List Char) {c : Char} (lineEnd : isLineEnd c = true)
    (back : List Char) : linesOf (cs ++ c :: back) = linesOf cs ++ linesOf back := by
  unfold linesOf
  rw [List.splitOnP_append_cons cs back lineEnd]
  simp only [List.map_append, List.filter_append]

theorem linesOf_append {front : String} (whole : HoldsLines front) (back : List Char) :
    linesOf (front.toList ++ back) = linesOf front.toList ++ linesOf back := by
  rcases whole with rfl | ⟨cs, c, ends, lineEnd⟩
  · rfl
  · rw [ends, List.append_assoc, List.singleton_append, linesOf_append_lineEnd cs lineEnd,
      linesOf_append_lineEnd cs lineEnd, linesOf_nil, List.append_nil]

theorem ofLedger_append {front : String} (whole : HoldsLines front) (back : String) :
    ofLedger now (front ++ back) =
      (do return (← ofLedger now front) ++ (← ofLedger now back)) := by
  have both := linesOf_append whole back.toList
  change (linesOf (front ++ back).toList).mapM (ofLine now) = _
  rw [String.toList_append, both, List.mapM_append]
  rfl

theorem not_lineEnd {c : Char} (printed : 0x20 ≤ c.toNat) : isLineEnd c = false := by
  cases ends : isLineEnd c with
  | false => rfl
  | true =>
      simp only [isLineEnd, Bool.or_eq_true, beq_iff_eq] at ends
      rcases ends with rfl | rfl <;> exact absurd printed (by decide)

theorem trim_braced {text : String}
    (braced : ∃ inner, text.toList = '\x7b' :: (inner ++ ['\x7d'])) :
    Text.trim text = text := by
  obtain ⟨inner, chars⟩ := braced
  have front : (text.toList).dropWhile Text.isBlank = text.toList := by
    rw [chars, List.dropWhile_cons_of_neg (by decide)]
  have back : text.toList.reverse.dropWhile Text.isBlank = text.toList.reverse := by
    rw [chars, List.reverse_cons, List.reverse_append, List.reverse_singleton,
      List.singleton_append, List.cons_append, List.dropWhile_cons_of_neg (by decide)]
  unfold Text.trim Text.trimBoth Text.trimEnd
  rw [front, back, List.reverse_reverse, String.ofList_toList]

/-- The line of a signal is the only line of its text. -/
theorem IsLineOf.linesOf {text : String} {signal : Signal} (line : IsLineOf text signal) :
    linesOf (text ++ "\n").toList = [text] := by
  have noEnd : ∀ c ∈ text.toList, isLineEnd c = false :=
    fun c member => not_lineEnd (line.unbroken c member)
  have alone : Signal.linesOf text.toList = [text] := by
    have nonempty : text.isEmpty = false := by
      obtain ⟨inner, chars⟩ := line.braced
      cases empty : text.isEmpty with
      | false => rfl
      | true =>
          rw [String.isEmpty_iff] at empty
          subst empty
          cases chars
    unfold Signal.linesOf
    rw [List.splitOnP_eq_singleton noEnd, List.map_singleton, List.map_singleton,
      String.ofList_toList, trim_braced line.braced]
    simp [nonempty]
  rw [String.toList_append]
  change Signal.linesOf (text.toList ++ ['\n']) = _
  rw [linesOf_append_lineEnd _ (by rfl), linesOf_nil, alone]
  rfl

theorem IsLineOf.holdsLines {text : String} {signal : Signal} (_ : IsLineOf text signal) :
    HoldsLines (text ++ "\n") :=
  .inr ⟨text.toList, '\n', String.toList_append, rfl⟩

theorem IsLineOf.ofLedger {text : String} {signal : Signal} (line : IsLineOf text signal) :
    ofLedger now (text ++ "\n") = .ok [signal] := by
  change (Signal.linesOf (text ++ "\n").toList).mapM (ofLine now) = _
  rw [line.linesOf, List.mapM_cons, line.reads]
  rfl

/-- The lines of a ledger file, each with its line end. -/
def joined (lines : List String) : String := String.join (lines.map (· ++ "\n"))

theorem joined_concat (lines : List String) (line : String) :
    joined (lines ++ [line]) = joined lines ++ (line ++ "\n") := by
  simp [joined, String.join_append]

theorem joined_cons (line : String) (lines : List String) :
    joined (line :: lines) = line ++ "\n" ++ joined lines := by
  simp [joined, String.join_cons]

/-- The lines of signals are read back as these signals. -/
theorem ofLedger_joined {lines : List String} {signals : List Signal}
    (ofSignals : List.Forall₂ IsLineOf lines signals) :
    ofLedger now (joined lines) = .ok signals := by
  induction ofSignals with
  | nil => rfl
  | cons line _ ih =>
      rw [joined_cons, ofLedger_append line.holdsLines, line.ofLedger, ih]
      rfl

end Texts

end Signal

section Files

variable {σ : Type} {files : FileTree} {path : String} {place : List String} {before : String}

/-- What a ledger holds is what stands in its file, if there is one. -/
theorem loadLedger_of_target (reached : files.target path = .ok (place, before))
    (now : Timestamp) : loadLedger files now path = Signal.ofLedger now before := by
  obtain ⟨nameable, located, held⟩ := FileTree.target_eq_ok_iff.mp reached
  unfold loadLedger
  rcases held with ⟨absent, rfl⟩ | held
  · have missing : files.exists? path = .ok false := by
      unfold FileTree.exists?
      rw [nameable, FileTree.find_of_located located, absent]
      rfl
    rw [missing]
    rfl
  · rw [FileTree.exists?_of_located nameable located held,
      FileTree.read_of_target reached held]
    rfl

/-- The line of a signal is added to what the ledger holds. -/
theorem Emitter.writeLine_of_target {emitter : Emitter σ} (ledger : emitter.ledger = some path)
    (reached : files.target path = .ok (place, before)) {signal : Signal} {text : String}
    (line : signal.line = .ok text) :
    ∃ after, emitter.writeLine files signal = (after, .ok ()) ∧
      after.target path = .ok (place, before ++ text) ∧
      after.entry? place = some (.file (before ++ text)) := by
  obtain ⟨opened, openedOk, openedReached, -⟩ := FileTree.append_of_target reached ""
  rw [String.append_empty] at openedReached
  obtain ⟨after, afterOk, afterReached, held⟩ := FileTree.append_of_target openedReached text
  refine ⟨after, ?_, afterReached, held⟩
  unfold writeLine
  rw [ledger]
  dsimp only
  rw [openedOk]
  dsimp only
  rw [line]
  simp only [Except.bind, afterOk]

end Files

end WebHarvest
