import WebHarvest.Proofs.Files.Rooted
import WebHarvest.Proofs.Session.Mishap

/-!
# Stores keep their trees rooted

No call on a store, whether it succeeds or fails, leaves a file or directory behind that does not
lie in a directory. So the path of a directory that leads straight down still does so after any
history.
-/

set_option autoImplicit false

namespace WebHarvest

namespace Session

/-- An operation that leaves files with a property as it finds them, also when it fails. -/
def Access.Keeps {α : Type} (property : FileTree → Prop) (access : Access α) : Prop :=
  ∀ ⦃desk : Desk⦄, property desk.files → property (access.perform desk).2.files

section Laws

variable {α β : Type} {property : FileTree → Prop}

theorem keeps_settle (outcome : Except Failure α) : (settle outcome).Keeps property :=
  fun _ holds => holds

theorem keeps_pure (result : α) : (pure result : Access α).Keeps property :=
  keeps_settle (.ok result)

theorem keeps_throw (failure : Failure) : (throw failure : Access α).Keeps property :=
  keeps_settle (.error failure)

theorem keeps_bind {access : Access α} {next : α → Access β} (first : access.Keeps property)
    (rest : ∀ result, (next result).Keeps property) : (access >>= next).Keeps property := by
  intro desk holds
  have middle := first holds
  rw [perform_bind]
  cases ran : access.perform desk with
  | mk outcome after =>
      rw [ran] at middle
      cases outcome with
      | ok result => exact rest result middle
      | error failure => exact middle

theorem keeps_get : (get : Access Desk).Keeps property := fun _ holds => holds

/-- What is remembered and reported is no part of the files. -/
theorem keeps_modify {edit : Desk → Desk} (same : ∀ desk, (edit desk).files = desk.files) :
    (modify edit : Access Unit).Keeps property := by
  intro desk holds
  rw [perform_modify]
  dsimp only
  rw [same]
  exact holds

theorem keeps_inspect (look : FileTree → Except Failure α) : (inspect look).Keeps property := by
  intro desk holds
  rw [perform_inspect]
  exact holds

theorem keeps_change {edit : FileTree → Except Failure FileTree}
    (kept : ∀ ⦃files after⦄, property files → edit files = .ok after → property after) :
    (change edit).Keeps property := by
  intro desk holds
  cases edited : edit desk.files with
  | error failure =>
      rw [perform_change_error edited]
      exact holds
  | ok files =>
      rw [perform_change edited]
      exact kept holds edited

theorem keeps_makeDirectory
    (kept : ∀ ⦃files⦄ path, property files → property (files.makeDirectories path).1) :
    makeDirectory.Keeps property := by
  intro desk holds
  rw [perform_makeDirectory]
  exact kept _ holds

theorem keeps_lift {access : Access α} (keeps : access.Keeps property) :
    Access.Keeps property (ExceptT.lift access.run : Access (Except Failure α)) := by
  intro desk holds
  rw [perform_lift]
  exact keeps holds

theorem keeps_forget (id : String) : (forget id).Keeps property := keeps_modify fun _ => rfl

theorem keeps_report (message : String) (extra : Record) : (report message extra).Keeps property :=
  keeps_modify fun _ => rfl

theorem keeps_pathOf (id : String) : (pathOf id).Keeps property :=
  keeps_bind (keeps_settle _) fun _ => keeps_bind keeps_get fun _ => keeps_pure _

end Laws

section Operations

theorem writeWhole_rooted (temporary file : String) (text : Except Failure String) :
    (writeWhole temporary file text).Keeps FileTree.Rooted := by
  refine keeps_bind (keeps_lift ?_) fun outcome => ?_
  · exact keeps_bind (keeps_settle text) fun _ =>
      keeps_bind (keeps_change fun _ _ rooted written => rooted.write written) fun _ =>
        keeps_change fun _ _ rooted renamed => rooted.rename renamed
  · cases outcome with
    | ok done => exact keeps_pure ()
    | error failure =>
        refine keeps_bind (keeps_inspect _) fun left => ?_
        cases left with
        | true =>
            exact keeps_bind (keeps_change fun _ _ rooted removed => rooted.unlink removed)
              fun _ => keeps_throw failure
        | false => exact keeps_throw failure

theorem save_rooted (id : String) (state : Value) : (save id state).Keeps FileTree.Rooted := by
  refine keeps_bind (keeps_settle _) fun _ => ?_
  refine keeps_bind (keeps_settle _) fun state => ?_
  refine keeps_bind keeps_get fun desk => ?_
  refine keeps_bind (keeps_makeDirectory fun _ path rooted => rooted.makeDirectories path) ?_
  exact fun _ => keeps_bind (writeWhole_rooted _ _ _) fun _ =>
    keeps_bind (keeps_modify fun _ => rfl) fun _ =>
      keeps_bind (keeps_report _ _) fun _ => keeps_pure _

theorem load_rooted (id : String) : (load id).Keeps FileTree.Rooted := by
  refine keeps_bind (keeps_pathOf id) fun path => ?_
  refine keeps_bind (keeps_inspect _) fun present => ?_
  cases present with
  | true => exact keeps_bind (keeps_inspect _) fun text => keeps_settle _
  | false => exact keeps_bind (keeps_forget id) fun _ => keeps_throw _

theorem holds_rooted (id : String) : (holds id).Keeps FileTree.Rooted := by
  refine keeps_bind (keeps_pathOf id) fun path => ?_
  refine keeps_bind (keeps_inspect _) fun present => ?_
  cases present with
  | true => exact keeps_pure true
  | false => exact keeps_bind (keeps_forget id) fun _ => keeps_pure false

theorem delete_rooted (id : String) : (delete id).Keeps FileTree.Rooted := by
  refine keeps_bind (keeps_pathOf id) fun path => ?_
  refine keeps_bind (keeps_forget id) fun _ => ?_
  refine keeps_bind (keeps_inspect _) fun present => ?_
  cases present with
  | true =>
      exact keeps_bind (keeps_change fun _ _ rooted removed => rooted.unlink removed) fun _ =>
        keeps_bind (keeps_report _ _) fun _ => keeps_pure true
  | false => exact keeps_pure false

theorem list_rooted : Session.list.Keeps FileTree.Rooted := by
  refine keeps_bind keeps_get fun desk => ?_
  refine keeps_bind (keeps_inspect _) fun present => ?_
  cases present with
  | true => exact keeps_bind (keeps_inspect _) fun children => keeps_pure _
  | false => exact keeps_pure []

end Operations

end Session

open Session

theorem StoreCall.rooted (call : StoreCall) : call.access.Keeps FileTree.Rooted := by
  cases call with
  | save id source => exact keeps_bind (save_rooted id source) fun _ => keeps_pure _
  | load id => exact keeps_bind (load_rooted id) fun _ => keeps_pure _
  | holds id => exact keeps_bind (holds_rooted id) fun _ => keeps_pure _
  | delete id => exact keeps_bind (delete_rooted id) fun _ => keeps_pure _
  | list => exact keeps_bind list_rooted fun _ => keeps_pure _

namespace StoreEvent

/-- What others do to the files keeps them rooted; nothing is asked of a call. -/
def Decent : StoreEvent → Prop
  | called _ => True
  | touched edit => ∀ files : FileTree, files.Rooted → (edit files).Rooted

theorem perform_rooted {event : StoreEvent} (decent : event.Decent) {desk : Desk}
    (rooted : desk.files.Rooted) : (event.perform desk).files.Rooted := by
  cases event with
  | called call => exact call.rooted rooted
  | touched edit => exact decent _ rooted

theorem performAll_rooted {history : List StoreEvent} (decent : ∀ event ∈ history, event.Decent)
    {desk : Desk} (rooted : desk.files.Rooted) : (history.foldl perform desk).files.Rooted := by
  induction history generalizing desk with
  | nil => exact rooted
  | cons event rest ih =>
      obtain ⟨first, later⟩ := List.forall_mem_cons.mp decent
      exact ih later (perform_rooted first rooted)

/-- The path of a store's directory leads straight down after any history, if it does so before. -/
theorem performAll_leadsDown {path : String} {files : FileTree} (log : List LogRecord)
    {history : List StoreEvent} (rooted : files.Rooted)
    (plain : FileTree.IsPlain (FilePath.steps (FilePath.normalize path)))
    (decent : ∀ event ∈ history, event.Decent) :
    (history.foldl perform ⟨.ofPath path, files, log⟩).LeadsDown := by
  refine ⟨performAll_rooted decent rooted, ?_⟩
  rw [(performAll_ofPath path files log history).works]
  exact plain

end StoreEvent

end WebHarvest
