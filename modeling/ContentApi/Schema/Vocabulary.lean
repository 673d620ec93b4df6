/-! Closed vocabularies, whose words include one for whatever is not known yet. -/

namespace ContentApi

/-- A vocabulary that members of documents are written in. -/
inductive Vocabulary where
  | linkAccess
  | holdStatus
  | retentionType
  | disposition
  | retentionStatus
  | taskAction
  | resolution
  deriving DecidableEq

/-- Whether requests name the words of a vocabulary. That is so for each but the one for the status
of a legal hold, which only the service sets. -/
class Vocabulary.IsRequested (v : Vocabulary) : Prop where
  /-- The vocabulary is not that one. -/
  ne_holdStatus : v ≠ .holdStatus

instance : Vocabulary.linkAccess.IsRequested := ⟨nofun⟩

instance : Vocabulary.retentionType.IsRequested := ⟨nofun⟩

instance : Vocabulary.disposition.IsRequested := ⟨nofun⟩

instance : Vocabulary.retentionStatus.IsRequested := ⟨nofun⟩

instance : Vocabulary.taskAction.IsRequested := ⟨nofun⟩

instance : Vocabulary.resolution.IsRequested := ⟨nofun⟩

/-- A word of a vocabulary. -/
inductive Word : Vocabulary → Type where
  | anyone : Word .linkAccess
  | company : Word .linkAccess
  | collaborators : Word .linkAccess
  | activeHold : Word .holdStatus
  | applying : Word .holdStatus
  | releasing : Word .holdStatus
  | released : Word .holdStatus
  | finite : Word .retentionType
  | indefinite : Word .retentionType
  | permanentlyDelete : Word .disposition
  | removeRetention : Word .disposition
  | activePolicy : Word .retentionStatus
  | retired : Word .retentionStatus
  | review : Word .taskAction
  | complete : Word .taskAction
  | completed : Word .resolution
  | incomplete : Word .resolution
  | approved : Word .resolution
  | rejected : Word .resolution
  /-- The word for whatever is not known. -/
  | unknown (v : Vocabulary) : Word v
  deriving DecidableEq

namespace Word

/-- Every word of a vocabulary. -/
def all : (v : Vocabulary) → List (Word v)
  | .linkAccess => [anyone, company, collaborators, unknown _]
  | .holdStatus => [activeHold, applying, releasing, released, unknown _]
  | .retentionType => [finite, indefinite, unknown _]
  | .disposition => [permanentlyDelete, removeRetention, unknown _]
  | .retentionStatus => [activePolicy, retired, unknown _]
  | .taskAction => [review, complete, unknown _]
  | .resolution => [completed, incomplete, approved, rejected, unknown _]

/-- The text of a word in a document. -/
def text : {v : Vocabulary} → Word v → String
  | _, anyone => "open"
  | _, company => "company"
  | _, collaborators => "collaborators"
  | _, activeHold => "active"
  | _, applying => "applying"
  | _, releasing => "releasing"
  | _, released => "released"
  | _, finite => "finite"
  | _, indefinite => "indefinite"
  | _, permanentlyDelete => "permanently_delete"
  | _, removeRetention => "remove_retention"
  | _, activePolicy => "active"
  | _, retired => "retired"
  | _, review => "review"
  | _, complete => "complete"
  | _, completed => "completed"
  | _, incomplete => "incomplete"
  | _, approved => "approved"
  | _, rejected => "rejected"
  | _, unknown _ => "unknown"

/-- The text of a word in a request, which is kept apart from its text in documents. -/
def requestText : {v : Vocabulary} → [v.IsRequested] → Word v → String
  | _, _, anyone => "open"
  | _, _, company => "company"
  | _, _, collaborators => "collaborators"
  | _, _, finite => "finite"
  | _, _, indefinite => "indefinite"
  | _, _, permanentlyDelete => "permanently_delete"
  | _, _, removeRetention => "remove_retention"
  | _, _, activePolicy => "active"
  | _, _, retired => "retired"
  | _, _, review => "review"
  | _, _, complete => "complete"
  | _, _, completed => "completed"
  | _, _, incomplete => "incomplete"
  | _, _, approved => "approved"
  | _, _, rejected => "rejected"
  | _, _, unknown _ => "unknown"
  | _, requested, activeHold | _, requested, applying | _, requested, releasing
  | _, requested, released => absurd rfl requested.ne_holdStatus

/-- The word that a text is, or the word for whatever is not known. -/
def ofText (v : Vocabulary) (text : String) : Word v :=
  ((all v).find? (·.text == text)).getD (unknown v)

/-- A word is read back from its text. -/
theorem ofText_text {v : Vocabulary} (w : Word v) : ofText v w.text = w := by
  -- No vocabulary has two words of one text.
  cases w with
  | unknown v => cases v <;> rfl
  | _ => rfl

/-- A word has one text, in documents and in requests. -/
theorem requestText_eq_text {v : Vocabulary} [requested : v.IsRequested] (w : Word v) :
    w.requestText = w.text := by
  -- Both tables are looked at word by word.
  cases w with
  | activeHold | applying | releasing | released => exact absurd rfl requested.ne_holdStatus
  | _ => rfl

/-- A word that may be missing has one text, in documents and in requests. -/
theorem map_requestText {v : Vocabulary} [v.IsRequested] (word : Option (Word v)) :
    word.map (·.requestText) = word.map text :=
  congrArg (Option.map · word) (funext requestText_eq_text)

end Word

end ContentApi
