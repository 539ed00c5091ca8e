import AirNote.Memory

/-!
# Which embedding model is served

The provider resolves the model to load: an override of the environment, else
the model of the signed record once its migration is complete, else the
bundled model. What it loads it keeps in a cell, which a migration replaces.

## Main results

* `resolve_ok` — what the resolution answers.
-/

namespace AirNote

/-- `MigrationState`. -/
inductive MigrationState where
  | inProgress
  | complete
  deriving DecidableEq, Repr

/-- `LanguagePackRecord`. -/
structure LanguagePackRecord where
  modelId : String
  safetensorsSha : String
  migration : MigrationState
  consentedAt : String
  deriving DecidableEq, Repr

/-- `ModelState`. -/
inductive ModelState where
  | ok
  | missing (expected : String)
  | mismatch (expected loaded : String)
  | failed (reason : String)
  deriving DecidableEq, Repr

/-- The weights file of a model: absent, unreadable, or of this digest. -/
inductive Weights where
  | absent
  | unreadable (msg : String)
  | sha (digest : String)
  deriving DecidableEq, Repr

/-- The inputs of the resolution. The override is the identifier bound in its
folder, or the bundled one. -/
structure Resolution where
  envOverride : Option String
  bundledId : String
  deriving DecidableEq, Repr

/-- `resolve`: the model state it sets and the model it answers, or the text
of the error. -/
def resolve (cfg : Resolution) (record : Option LanguagePackRecord)
    (weights : Weights) (state : ModelState) :
    ModelState × Except String String :=
  match cfg.envOverride with
  | some id => (state, .ok id)
  | none =>
      match record with
      | some r =>
          if r.migration = .complete then
            match weights with
            | .absent => (.missing r.modelId, .error
                s!"language pack '{r.modelId}' is enabled but its files are missing — re-download")
            | .unreadable msg => (state, .error msg)
            | .sha digest =>
                if digest ≠ r.safetensorsSha then
                  (.mismatch r.modelId digest, .error
                    s!"language pack '{r.modelId}' failed its integrity check — re-download")
                else (.ok, .ok r.modelId)
          else (.ok, .ok cfg.bundledId)
      | none => (.ok, .ok cfg.bundledId)

/-- The model of a complete record. -/
def completeModel : Option LanguagePackRecord → Option String
  | some r => if r.migration = .complete then some r.modelId else none
  | none => none

/-- The model a provider with an empty cell serves, if it serves one. -/
def servedModel (cfg : Resolution) (record : Option LanguagePackRecord) :
    String :=
  cfg.envOverride.getD ((completeModel record).getD cfg.bundledId)

@[simp] theorem completeModel_none : completeModel none = none := rfl

@[simp] theorem completeModel_complete (model sha at_ : String) :
    completeModel (some ⟨model, sha, .complete, at_⟩) = some model := rfl

@[simp] theorem completeModel_inProgress (model sha at_ : String) :
    completeModel (some ⟨model, sha, .inProgress, at_⟩) = none := rfl

/-- Where the resolution answers, it answers the model to be served. -/
theorem resolve_ok {cfg : Resolution} {record : Option LanguagePackRecord}
    {weights : Weights} {state : ModelState} {model : String}
    (h : (resolve cfg record weights state).2 = .ok model) :
    model = servedModel cfg record := by
  unfold resolve at h
  unfold servedModel
  cases henv : cfg.envOverride with
  | some id =>
      simp only [henv, Except.ok.injEq] at h
      exact h.symm
  | none =>
      simp only [henv] at h
      cases record with
      | none => exact (Except.ok.inj h).symm
      | some r =>
          by_cases hcomplete : r.migration = .complete
          · simp only [hcomplete, if_true] at h
            rw [Option.getD_none, completeModel, if_pos hcomplete,
              Option.getD_some]
            cases weights with
            | absent => cases h
            | unreadable msg => cases h
            | sha digest =>
                simp only at h
                split at h
                · cases h
                · exact (Except.ok.inj h).symm
          · simp only [hcomplete, if_false] at h
            rw [Option.getD_none, completeModel, if_neg hcomplete,
              Option.getD_none]
            exact (Except.ok.inj h).symm

end AirNote
