import AirNote.CaptureDocument
import AirNote.Chunks
import AirNote.DetectorRuns

/-!
# Passage vectors and passage texts

A capture is stored in three steps: its document is written, its event is
appended, and the chunks of its body are embedded under the event. Later the
text of a passage is found by chunking the document again. The daemon may die
after any of the steps; a heal pass then appends the event a document lacks,
and writes a stub for an event whose document is gone.

The vectors of a session belong to its current event and the text to its
document, and the two are of one body only as long as the document is. A
re-capture that stops between its document and its event leaves the new
document over the old event, which no heal pass looks at again, and a stub
stands for the document of an event that has vectors.

## Main results

* `Kept.exec` — what one step keeps.
* `passages_match` — the vectors match the texts in every run that does
  neither of the two.
* `recapture_cut_short` — a run that does the first, and one the second.
-/

namespace AirNote.CaptureFiles

open Lib Chunks

/-! ## Data -/

/-- `CaptureStoreError`. -/
inductive CaptureStoreError where
  | invalidSessionId
  | io (message : String)
  | engine (e : BossclawError)
  deriving DecidableEq, Repr

/-- What does not change: the directory, how a date is written, and the vector
each model gives a text. -/
structure Env where
  dir : String
  dateLabel : Int → String
  vec : String → String → Bytes

/-- An embedding model at work: its identifier, its width, and what it answers
where it fails. -/
structure Model where
  id : String
  dim : Nat
  fails : String → Option BossclawError

/-- The model, as the engine calls it. -/
def Model.embedder (env : Env) (m : Model) : Embedder :=
  { modelId := m.id
    dim := m.dim
    embed := fun text =>
      match m.fails text with
      | some e => .error e
      | none => .ok (env.vec m.id text) }

/-- What one call meets: the failure of its file write, the mints and the
model of its capture, and the model of its passages, where the engine is
reached for them. -/
structure Call where
  io : Option String
  m₁ : Mint
  m₂ : Mint
  model : Model
  passages : Option Model

/-- How far a call gets: the daemon may die after the document is written, or
after the event is appended. -/
inductive Stop where
  | written
  | recorded
  | done
  deriving DecidableEq, Repr

/-- The data directory: the engine's store, and the documents by the session
they are named after. -/
structure DataDir where
  store : Store
  files : String → Option String

/-- A new data directory. -/
def DataDir.empty : DataDir := ⟨.empty, fun _ => none⟩

/-- `atomic_write_0600` to the document of a session. -/
def DataDir.write (d : DataDir) (sid doc : String) : DataDir :=
  { d with files := fun s => if s = sid then some doc else d.files s }

/-- `remove_file` on the document of a session. -/
def DataDir.remove (d : DataDir) (sid : String) : DataDir :=
  { d with files := fun s => if s = sid then none else d.files s }

/-- The path of the document of a session. -/
def Env.mdPath (env : Env) (sid : String) : String :=
  s!"{env.dir}/sessions/{sid}.md"

/-! ## Reading a passage -/

/-- The body a document is read back with. -/
def recoveredBody (doc : String) : String :=
  String.ofList (captureBody (readCaptureMarkdown doc))

/-- `session_passage_text`. -/
def sessionPassageText (d : DataDir) (sid : String) (passageId : Nat) :
    Option String :=
  if !validSessionId sid then none
  else (d.files sid).bind fun doc =>
    (chunkText (recoveredBody doc))[passageId]?

/-! ## Storing a capture -/

/-- `session_passages_absent`. -/
def sessionPassagesAbsent (st : Store) (eventId : String) : Bool :=
  !(st.passages.any fun r => r.eventId == eventId)

/-- `persist_passages_if_absent`: a failure is logged and dropped. -/
def persistPassagesIfAbsent (env : Env) (passages : Option Model) (st : Store)
    (ev body : String) : Store :=
  match passages with
  | none => st
  | some m =>
      if sessionPassagesAbsent st ev then
        (storeSessionPassages (m.embedder env) st ev (chunkText body)).1
      else st

/-- The header of a capture's document. -/
def Rendered.header (id : CaptureIdentity) (r : Rendered) : Header :=
  { sessionId := id.sessionId
    title := r.title
    project := id.project
    tool := id.tool
    sha256 := r.sha256
    startedAt := r.startedAt
    endedAt := r.endedAt
    approxBytes := r.approxBytes
    oversizedLines := r.oversizedLines
    skippedUnknown := r.skippedUnknown
    tornTail := r.droppedTornTail
    recoveredStub := false }

/-- The document of a capture. -/
def Rendered.document (id : CaptureIdentity) (r : Rendered) : String :=
  composeDocument (r.header id) r.body

/-- The metadata of a capture. -/
def Rendered.sessionMeta (env : Env) (id : CaptureIdentity) (r : Rendered) :
    SessionMeta :=
  { sessionId := id.sessionId
    title := r.title
    project := id.project
    tool := id.tool
    startedAt := r.startedAt
    endedAt := r.endedAt
    path := env.mdPath id.sessionId
    sha256 := r.sha256
    approxBytes := r.approxBytes }

/-- `store_capture`. It has no result where the daemon dies. -/
def storeCapture (env : Env) (c : Call) (stop : Stop) (d : DataDir)
    (id : CaptureIdentity) (r : Rendered) :
    DataDir × Option (Except CaptureStoreError Unit) :=
  if !validSessionId id.sessionId then (d, some (.error .invalidSessionId))
  else
    match c.io with
    | some e => (d, some (.error (.io e)))
    | none =>
        let d := d.write id.sessionId (r.document id)
        if stop = .written then (d, none)
        else
          match captureSession env.dateLabel (c.model.embedder env) c.m₁ c.m₂
              d.store (r.sessionMeta env id) with
          | (st, .error e) => ({ d with store := st }, some (.error (.engine e)))
          | (st, .ok ev) =>
              if stop = .recorded then ({ d with store := st }, none)
              else
                ({ d with
                    store := persistPassagesIfAbsent env c.passages st ev
                      r.body },
                  some (.ok ()))

/-- `delete_capture`: the tombstone, then the document. -/
def deleteCapture (m : Mint) (stop : Stop) (d : DataDir) (sid : String) :
    DataDir × Option (Except CaptureStoreError Unit) :=
  if !validSessionId sid then (d, some (.error .invalidSessionId))
  else
    let (st, res) := deleteSession m d.store sid
    match res with
    | .ok _ | .error (.invalidInput _) =>
        if stop = .done then (({ d with store := st }.remove sid), some (.ok ()))
        else ({ d with store := st }, none)
    | .error e => ({ d with store := st }, some (.error (.engine e)))

/-! ## Healing -/

/-- The first window of `heal_orphans`, for the document of one session: a
document without a current event. The pass reads the current sessions once;
the captures it makes are of the documents it has passed. -/
def healOrphan (env : Env) (c : Call) (stop : Stop) (d : DataDir)
    (stem : String) : DataDir :=
  match d.files stem with
  | none => d
  | some doc =>
      if (findCurrent d.store.log stem).isSome then d
      else
        match parseCapturedMeta (readFrontMatterPrefix doc)
            (env.mdPath stem) with
        | none => d
        | some sm =>
            if (findCurrent d.store.log sm.sessionId).isSome then d
            else if stop = .written then d
            else
              match captureSession env.dateLabel (c.model.embedder env) c.m₁
                  c.m₂ d.store sm with
              | (st, .ok ev) =>
                  if stop = .recorded then { d with store := st }
                  else
                    { d with
                      store := persistPassagesIfAbsent env c.passages st ev
                        (recoveredBody doc) }
              | (st, .error (.invalidInput _)) =>
                  if stop = .recorded then { d with store := st }
                  else { d with store := st }.remove stem
              | (st, .error _) => { d with store := st }

/-- The body of a recovery stub. -/
def stubBody : String :=
  "_(session body was not recovered from disk; metadata restored from the " ++
    "signed event. If the source transcript is still present, the next " ++
    "sweep replaces this with the full rendering.)_\n"

/-- The header of a recovery stub. -/
def stubHeader (cs : CurrentSession) : Header :=
  { sessionId := cs.sessionId
    title := cs.title
    project := cs.project
    tool := cs.tool
    sha256 := cs.sha256
    startedAt := cs.startedAt
    endedAt := cs.endedAt
    approxBytes := cs.approxBytes
    oversizedLines := 0
    skippedUnknown := 0
    tornTail := false
    recoveredStub := true }

/-- `regenerated_document`. -/
def regeneratedDocument (cs : CurrentSession) : String :=
  composeDocument (stubHeader cs) stubBody

/-- The second window of `heal_orphans`, for one session: a current event
without a document. -/
def healDangling (d : DataDir) (sid : String) : DataDir :=
  match findCurrent d.store.log sid with
  | none => d
  | some cs =>
      if !validSessionId cs.sessionId then d
      else if (d.files cs.sessionId).isSome then d
      else d.write cs.sessionId (regeneratedDocument cs)

/-! ## Runs -/

/-- A step of the store. A heal pass, wherever it ends, is a list of healing
steps; `lost` is a document removed by another hand; `reembed` stores the
passages of a session again, from its document, under some model. -/
inductive Step where
  | store (c : Call) (stop : Stop) (id : CaptureIdentity) (r : Rendered)
  | delete (m : Mint) (stop : Stop) (sid : String)
  | orphan (c : Call) (stop : Stop) (stem : String)
  | dangling (sid : String)
  | reembed (m : Model) (sid : String)
  | lost (sid : String)

/-- `store_session_passages`, with the chunks of the session's document. -/
def reembedPassages (env : Env) (m : Model) (d : DataDir) (sid : String) :
    DataDir :=
  match findCurrent d.store.log sid, d.files sid with
  | some cs, some doc =>
      { d with
        store := (storeSessionPassages (m.embedder env) d.store cs.eventId
          (chunkText (recoveredBody doc))).1 }
  | _, _ => d

/-- What a step leaves behind. -/
def DataDir.exec (env : Env) (d : DataDir) : Step → DataDir
  | .store c stop id r => (storeCapture env c stop d id r).1
  | .delete m stop sid => (deleteCapture m stop d sid).1
  | .orphan c stop stem => healOrphan env c stop d stem
  | .dangling sid => healDangling d sid
  | .reembed m sid => reembedPassages env m d sid
  | .lost sid => d.remove sid

/-- The vectors of a capture. -/
def HasVectors (d : DataDir) (cs : CurrentSession) : Prop :=
  ∃ r ∈ d.store.passages, r.eventId = cs.eventId

/-- **The vectors match the texts**: a vector stored for the current capture
of a session that has a document is that of the text the ordinal is read back
as, and its ordinal is one of the chunks of the document's body. -/
def Matched (env : Env) (d : DataDir) : Prop :=
  ∀ sid cs, findCurrent d.store.log sid = some cs →
    ∀ doc, d.files sid = some doc →
      ∀ r ∈ d.store.passages, r.eventId = cs.eventId →
        r.passageIx < (chunkText (recoveredBody doc)).length ∧
          ∃ text, sessionPassageText d sid r.passageIx = some text ∧
            r.embedding = env.vec r.modelId text

/-- The step keeps to what the matching needs. A document is one that is read
back whole and whose body is the one of its hash; a re-capture whose
transcript changed is recorded, where the capture before it has vectors; a
stub is written for no capture that has vectors, and none is embedded. -/
def Step.Keeps (env : Env) (bodyOf : String → String) (d : DataDir) :
    Step → Prop
  | .store c stop id r =>
      r.body = bodyOf r.sha256 ∧
      (Utf8.encodeText (r.document id).toList).length ≤ maxCaptureMdBytes ∧
      ∀ prev, findCurrent d.store.log id.sessionId = some prev →
        HasVectors d prev → prev.sha256 ≠ r.sha256 →
        stop ≠ .written ∧ ∃ st ids, d.store.appendPair c.m₁ c.m₂
          (groundTruthSupersedeEvent prev.eventId)
          (sessionCapturedEvent env.dateLabel (r.sessionMeta env id)) =
            (st, .ok ids)
  | .dangling sid =>
      ∀ cs, findCurrent d.store.log sid = some cs →
        d.files sid = none → ¬ HasVectors d cs
  | .reembed _ sid =>
      ∀ cs, findCurrent d.store.log sid = some cs →
        ∀ doc, d.files sid = some doc →
          recoveredBody doc = bodyOf cs.sha256
  | _ => True

/-! ## The log -/

/-- Metadata the daemon records: an identifier that names a file, a hash, and
numbers in range. -/
structure MetaSound (sm : SessionMeta) : Prop where
  valid : validSessionId sm.sessionId = true
  hash : sm.sha256.toList.all isHexDigit = true
  range : sm.InRange

/-- A log of such captures, where what is superseded was stored before. -/
structure LogSound (log : EventLog) : Prop where
  unique : UniqueIds log
  supersedes : ∀ ev ∈ log, ∀ id, Supersedes id ev → ∃ e ∈ log, e.id = id
  captures : ∀ ev ∈ log, ev.eventType = sessionCapturedEventType →
    ∃ sm, MetaSound sm ∧ parseSessionContent ev = some (sm.current ev.id)

theorem LogSound.stored {m : Mint} {log : EventLog} {draft stored : Event}
    (h : LogSound log) (hs : Stored m log draft stored)
    (hsup : ∀ id, Supersedes id stored → ∃ e ∈ log, e.id = id)
    (hcap : stored.eventType = sessionCapturedEventType →
      ∃ sm, MetaSound sm ∧
        parseSessionContent stored = some (sm.current stored.id)) :
    LogSound (log ++ [stored]) := by
  refine ⟨h.unique.stored hs, ?_, ?_⟩
  · intro ev hev id hid
    obtain ⟨e, he, heq⟩ : ∃ e ∈ log, e.id = id := by
      rcases List.mem_append.mp hev with hold | hnew
      · exact h.supersedes ev hold id hid
      · rw [List.mem_singleton] at hnew
        subst hnew
        exact hsup id hid
    exact ⟨e, List.mem_append_left _ he, heq⟩
  · intro ev hev htype
    rcases List.mem_append.mp hev with hold | hnew
    · exact h.captures ev hold htype
    · rw [List.mem_singleton] at hnew
      subst hnew
      exact hcap htype

theorem LogSound.supersede {m : Mint} {log : EventLog} {prior : String}
    {stored : Event} (h : LogSound log)
    (hs : Stored m log (groundTruthSupersedeEvent prior) stored)
    (hprior : ∃ e ∈ log, e.id = prior) : LogSound (log ++ [stored]) := by
  have htype : stored.eventType = supersedeEventType := hs.eventType_eq
  have hcontent : stored.content.getStr? "supersedes" = some prior := by
    rw [hs.content_of_none rfl]
    rfl
  refine h.stored hs (fun id hid => ?_) fun hcap =>
    absurd (htype.symm.trans hcap) (by decide)
  have heq := hid.2
  rw [hcontent, Option.some.injEq] at heq
  exact heq ▸ hprior

theorem LogSound.capture {m : Mint} {log : EventLog}
    {dateLabel : Int → String} {sm : SessionMeta} {stored : Event}
    (h : LogSound log)
    (hs : Stored m log (sessionCapturedEvent dateLabel sm) stored)
    (hsm : MetaSound sm) : LogSound (log ++ [stored]) := by
  have htype : stored.eventType = sessionCapturedEventType := hs.eventType_eq
  refine h.stored hs (fun id hid =>
    absurd (htype.symm.trans hid.1) (by decide)) fun _ => ⟨sm, hsm, ?_⟩
  rw [hs.id_eq]
  exact parseSessionContent_captured hs hsm.range

/-- A fresh identifier is superseded by nothing. -/
theorem LogSound.not_supersedes {m : Mint} {log : EventLog}
    {draft stored : Event} (h : LogSound log)
    (hs : Stored m log draft stored) :
    ∀ ev ∈ log, ¬ Supersedes m.id ev := by
  intro ev hev hsup
  obtain ⟨e, he, heq⟩ := h.supersedes ev hev m.id hsup
  exact hs.fresh e he heq

/-- The event of a current capture is a capture of no other session. -/
theorem LogSound.session_unique {log : EventLog} {sid sid' : String}
    {cs : CurrentSession} (h : LogSound log)
    (hcs : findCurrent log sid = some cs) {e : Event} (he : e ∈ log)
    (hid : e.id = cs.eventId) (hcap : IsCaptureOf sid' e) : sid' = sid := by
  obtain ⟨e', he', hid', hcap'⟩ := exists_of_findCurrent hcs
  have hfind := eventById_of_mem h.unique he
  rw [hid, ← hid', eventById_of_mem h.unique he', Option.some.injEq] at hfind
  subst hfind
  have heq := hcap.2
  rw [hcap'.2, Option.some.injEq] at heq
  exact heq.symm

/-- A current capture is what its event was recorded with. -/
theorem LogSound.current {log : EventLog} {sid : String}
    {cs : CurrentSession} (h : LogSound log)
    (hcs : findCurrent log sid = some cs) :
    cs.sessionId = sid ∧ ∃ ev ∈ log, ev.id = cs.eventId ∧
      parseSessionContent ev = some cs ∧
      ∃ sm, MetaSound sm ∧ cs = sm.current cs.eventId := by
  have hsid := List.find?_some hcs
  rw [beq_iff_eq] at hsid
  obtain ⟨ev, hev, hlive⟩ :=
    exists_of_mem_current (List.mem_of_find?_eq_some hcs)
  obtain ⟨hid, -⟩ := parseSessionContent_some hlive.parsed
  have hmem : ev ∈ log := (List.mem_filter.mp hev).1
  obtain ⟨sm, hsm, hparsed⟩ := h.captures ev hmem hlive.captured
  rw [hlive.parsed, Option.some.injEq, ← hid] at hparsed
  exact ⟨hsid, ev, hmem, hid.symm, hlive.parsed, sm, hsm, hparsed⟩

/-! ## Recording a capture -/

/-- What `capture_session` does: the capture is there already; it is refused;
or it is recorded, whatever comes of its own vector. -/
inductive Captures (dateLabel : Int → String) (m₁ m₂ : Mint) (st : Store)
    (sm : SessionMeta) : Outcome String → Prop where
  | same (prev : CurrentSession)
      (hprev : findCurrent st.log sm.sessionId = some prev)
      (hsha : prev.sha256 = sm.sha256) :
      Captures dateLabel m₁ m₂ st sm (st, .ok prev.eventId)
  | refused (e : BossclawError)
      (hprev : ∀ prev, findCurrent st.log sm.sessionId = some prev →
        prev.sha256 ≠ sm.sha256 ∧ ∀ st' ids, st.appendPair m₁ m₂
          (groundTruthSupersedeEvent prev.eventId)
          (sessionCapturedEvent dateLabel sm) ≠ (st', .ok ids)) :
      Captures dateLabel m₁ m₂ st sm (st, .error e)
  | recorded (st' : Store) (id : String) (res : Except BossclawError String)
      (hres : ∀ ev, res = .ok ev → ev = id)
      (hlog : LogSound st'.log) (hgrows : ∀ e ∈ st.log, e ∈ st'.log)
      (hpassages : st'.passages = st.passages)
      (hfresh : ∀ e ∈ st.log, e.id ≠ id)
      (hcurrent : findCurrent st'.log sm.sessionId = some (sm.current id))
      (hother : ∀ sid, sm.sessionId ≠ sid →
        findCurrent st'.log sid = findCurrent st.log sid) :
      Captures dateLabel m₁ m₂ st sm (st', res)

theorem derived_fst (emb : Embedder) (st : Store) (id : String) :
    ∃ st' res, derived emb (st, .ok id) = (st', res) ∧ st'.log = st.log ∧
      st'.passages = st.passages ∧ ∀ ev, res = .ok ev → ev = id := by
  have hlog : (derived emb (st, .ok id)).1.log = st.log := derived_log emb _
  have hpass := (sameTables_derived emb (st, .ok id)).passages
  have hres : ∀ ev, (derived emb (st, .ok id)).2 = .ok ev → ev = id := by
    intro ev hev
    unfold derived at hev
    dsimp only at hev
    split at hev
    · cases hev
    · cases hev
      rfl
  generalize derived emb (st, .ok id) = out at hlog hpass hres
  exact ⟨out.1, out.2, rfl, hlog, hpass, hres⟩

theorem captureSession_cases {dateLabel : Int → String} {emb : Embedder}
    {m₁ m₂ : Mint} {st : Store} {sm : SessionMeta} (h : LogSound st.log)
    (hsm : MetaSound sm) : Captures dateLabel m₁ m₂ st sm
      (captureSession dateLabel emb m₁ m₂ st sm) := by
  unfold captureSession
  split
  · next hdel =>
      refine .refused _ fun prev hprev => ?_
      rw [findCurrent_eq_none_of_deleted (mem_deleted_log.1 hdel)] at hprev
      cases hprev
  · next hdel =>
      have hlive : ¬ ∃ ev ∈ st.log, Deletes sm.sessionId ev :=
        fun hex => hdel (mem_deleted_log.2 hex)
      split
      · next prev hprev =>
          split
          · next hsha => exact .same prev hprev hsha
          · next hsha =>
              obtain ⟨e₀, he₀, hid₀, -⟩ := exists_of_findCurrent hprev
              rcases st.appendPair_cases m₁ m₂
                  (groundTruthSupersedeEvent prev.eventId)
                  (sessionCapturedEvent dateLabel sm) with
                ⟨e, hpair⟩ | ⟨s₁, s₂, h₁, h₂, hpair⟩
              · rw [hpair]
                refine .refused e fun prev' hprev' => ?_
                rw [hprev, Option.some.injEq] at hprev'
                subst hprev'
                refine ⟨hsha, fun st' ids heq => ?_⟩
                rw [hpair] at heq
                cases heq
              · rw [hpair]
                dsimp only
                have hlog₁ := h.supersede h₁ ⟨e₀, he₀, hid₀⟩
                obtain ⟨st', res, hder, hlog, hpass, hres⟩ :=
                  derived_fst emb ((st.push s₁).push s₂) m₂.id
                rw [hder]
                have hlog' : st'.log = st.log ++ [s₁] ++ [s₂] := hlog
                refine .recorded st' m₂.id res hres ?_ ?_ hpass ?_ ?_ ?_
                · rw [hlog']
                  exact hlog₁.capture h₂ hsm
                · intro e he
                  rw [hlog']
                  simp [he]
                · exact fun e he => h₂.fresh e (List.mem_append_left _ he)
                · rw [hlog']
                  refine findCurrent_captured h₂ hsm.range ?_
                    (hlog₁.not_supersedes h₂)
                  rintro ⟨ev, hev, hdeletes⟩
                  rcases List.mem_append.mp hev with hold | hnew
                  · exact hlive ⟨ev, hold, hdeletes⟩
                  · rw [List.mem_singleton] at hnew
                    subst hnew
                    have htype : ev.eventType = supersedeEventType :=
                      h₁.eventType_eq
                    exact absurd (htype.symm.trans hdeletes.1) (by decide)
                · intro sid hsid
                  rw [hlog', findCurrent_captured_other h₂ hsid,
                    findCurrent_superseded_other h₁ fun e he hid hcap =>
                      hsid (h.session_unique hprev he hid hcap).symm]
      · next hnone =>
          rcases st.append_cases m₁ (sessionCapturedEvent dateLabel sm) with
            ⟨e, happ⟩ | ⟨s, hs, happ⟩
          · rw [happ]
            refine .refused e fun prev hprev => ?_
            rw [hnone] at hprev
            cases hprev
          · rw [happ]
            obtain ⟨st', res, hder, hlog, hpass, hres⟩ :=
              derived_fst emb (st.push s) m₁.id
            rw [hder]
            have hlog' : st'.log = st.log ++ [s] := hlog
            refine .recorded st' m₁.id res hres ?_ ?_ hpass hs.fresh ?_ ?_
            · rw [hlog']
              exact h.capture hs hsm
            · intro e he
              rw [hlog']
              simp [he]
            · rw [hlog']
              exact findCurrent_captured hs hsm.range hlive
                (h.not_supersedes hs)
            · intro sid hsid
              rw [hlog', findCurrent_captured_other hs hsid]

/-! ## What the store keeps -/

/-- The vector of a row is that of a chunk of the body. -/
def RowOf (env : Env) (body : String) (r : PassageRow) : Prop :=
  ∃ text, (chunkText body)[r.passageIx]? = some text ∧
    r.embedding = env.vec r.modelId text

/-- The daemon composed the document for the session. Its body is the one of
its hash, or it is a stub, of a session that has been captured. -/
def Filed (bodyOf : String → String) (log : EventLog) (sid doc : String) :
    Prop :=
  ∃ h body, doc = composeDocument h body ∧ h.sessionId = sid ∧ h.LineSafe ∧
    h.InRange ∧ (recoveredBody doc = bodyOf h.sha256 ∨
      findCurrent log sid ≠ none ∨ SessionDeleted log sid)

/-- The body of the session's document is that of its current capture, where
this has vectors. -/
def Agrees (bodyOf : String → String) (d : DataDir) (sid : String) : Prop :=
  ∀ cs, findCurrent d.store.log sid = some cs →
    ∀ doc, d.files sid = some doc → HasVectors d cs →
      recoveredBody doc = bodyOf cs.sha256

/-- What every step keeps: the log is sound, every vector is one of a chunk of
the body its capture was made from, and the documents are the daemon's. -/
structure Kept (env : Env) (bodyOf : String → String) (d : DataDir) :
    Prop where
  log : LogSound d.store.log
  rows : ∀ r ∈ d.store.passages, ∃ ev ∈ d.store.log, ev.id = r.eventId ∧
    ∃ cs, parseSessionContent ev = some cs ∧ RowOf env (bodyOf cs.sha256) r
  files : ∀ sid doc, d.files sid = some doc →
    Filed bodyOf d.store.log sid doc

/-- The invariant of the runs whose steps keep to what the matching needs. -/
structure Whole (env : Env) (bodyOf : String → String) (d : DataDir) :
    Prop where
  kept : Kept env bodyOf d
  agrees : ∀ sid, Agrees bodyOf d sid

section Invariant

variable {env : Env} {bodyOf : String → String} {d : DataDir}

theorem whole_empty : Whole env bodyOf .empty := by
  refine ⟨⟨⟨uniqueIds_nil, ?_, ?_⟩, ?_, ?_⟩, ?_⟩
  · intro ev hev
    cases hev
  · intro ev hev
    cases hev
  · intro r hr
    cases hr
  · intro sid doc hdoc
    cases hdoc
  · intro sid cs _ doc hdoc
    cases hdoc

/-- The rows of a current capture are of chunks of its own body. -/
theorem Kept.rowOf_current (h : Kept env bodyOf d) {sid : String}
    {cs : CurrentSession} (hcs : findCurrent d.store.log sid = some cs)
    {r : PassageRow} (hr : r ∈ d.store.passages)
    (hid : r.eventId = cs.eventId) : RowOf env (bodyOf cs.sha256) r := by
  obtain ⟨ev, hev, hevid, cs', hparsed, hrow⟩ := h.rows r hr
  obtain ⟨-, ev', hev', hevid', hparsed', -⟩ := h.log.current hcs
  have hfind := eventById_of_mem h.log.unique hev
  rw [hevid, hid, ← hevid', eventById_of_mem h.log.unique hev',
    Option.some.injEq] at hfind
  subst hfind
  rw [hparsed, Option.some.injEq] at hparsed'
  exact hparsed' ▸ hrow

/-- **The invariant gives the matching.** -/
theorem Whole.matched (h : Whole env bodyOf d) : Matched env d := by
  intro sid cs hcs doc hdoc r hr hid
  obtain ⟨text, htext, hvec⟩ := h.kept.rowOf_current hcs hr hid
  have hbody := h.agrees sid cs hcs doc hdoc ⟨r, hr, hid⟩
  obtain ⟨hsid, -, -, -, -, sm, hsm, hcurrent⟩ := h.kept.log.current hcs
  have hvalid : validSessionId sid = true := by
    rw [← hsid, hcurrent]
    exact hsm.valid
  rw [hbody]
  refine ⟨(List.getElem?_eq_some_iff.mp htext).1, text, ?_, hvec⟩
  rw [sessionPassageText, hvalid, hdoc]
  simp [hbody, htext]

/-! ### Documents -/

theorem Kept.write (h : Kept env bodyOf d) {sid doc : String}
    (hdoc : Filed bodyOf d.store.log sid doc) :
    Kept env bodyOf (d.write sid doc) := by
  refine ⟨h.log, h.rows, fun s doc' hdoc' => ?_⟩
  unfold DataDir.write at hdoc'
  dsimp only at hdoc'
  split at hdoc'
  · next hs =>
      cases hdoc'
      exact hs ▸ hdoc
  · exact h.files s doc' hdoc'

theorem Agrees.write {sid sid' : String} (h : Agrees bodyOf d sid')
    (hne : sid' ≠ sid) (doc : String) :
    Agrees bodyOf (d.write sid doc) sid' := by
  intro cs hcs doc' hdoc' hvec
  refine h cs hcs doc' ?_ hvec
  unfold DataDir.write at hdoc'
  dsimp only at hdoc'
  rwa [if_neg hne] at hdoc'

theorem Whole.remove (h : Whole env bodyOf d) (sid : String) :
    Whole env bodyOf (d.remove sid) := by
  have hfiles : ∀ s doc, (d.remove sid).files s = some doc →
      d.files s = some doc := by
    intro s doc hdoc
    unfold DataDir.remove at hdoc
    dsimp only at hdoc
    split at hdoc
    · cases hdoc
    · exact hdoc
  exact ⟨⟨h.kept.log, h.kept.rows, fun s doc hdoc =>
      h.kept.files s doc (hfiles s doc hdoc)⟩,
    fun s cs hcs doc hdoc hvec =>
      h.agrees s cs hcs doc (hfiles s doc hdoc) hvec⟩

/-! ### Events -/

/-- What appended events make of the current capture of a session. -/
inductive Moves (st st' : Store) (sid : String) : Prop where
  | same (h : findCurrent st'.log sid = findCurrent st.log sid)
  | deleted (h : SessionDeleted st'.log sid)
  | fresh (cs : CurrentSession) (h : findCurrent st'.log sid = some cs)
      (hrows : ∀ r ∈ st'.passages, r.eventId ≠ cs.eventId)

theorem Kept.relog {st' : Store} (h : Kept env bodyOf d)
    (hlog : LogSound st'.log) (hgrows : ∀ e ∈ d.store.log, e ∈ st'.log)
    (hpassages : st'.passages = d.store.passages)
    (hmoves : ∀ sid, Moves d.store st' sid) :
    Kept env bodyOf { d with store := st' } := by
  refine ⟨hlog, ?_, ?_⟩
  · intro r hr
    dsimp only at hr
    rw [hpassages] at hr
    obtain ⟨ev, hev, hrest⟩ := h.rows r hr
    exact ⟨ev, hgrows ev hev, hrest⟩
  · intro sid doc hdoc
    obtain ⟨hd, body, hcompose, hsid, hsafe, hrange, hwhy⟩ :=
      h.files sid doc hdoc
    refine ⟨hd, body, hcompose, hsid, hsafe, hrange, ?_⟩
    rcases hwhy with hbody | hcur | ⟨ev, hev, hdel⟩
    · exact .inl hbody
    · cases hmoves sid with
      | same hsame => exact .inr (.inl (by rw [hsame]; exact hcur))
      | deleted hdel => exact .inr (.inr hdel)
      | fresh cs hcs hrows => exact .inr (.inl (by rw [hcs]; simp))
    · exact .inr (.inr ⟨ev, hgrows ev hev, hdel⟩)

theorem Agrees.relog {st' : Store} {sid : String}
    (h : findCurrent st'.log sid = findCurrent d.store.log sid →
      Agrees bodyOf d sid)
    (hpassages : st'.passages = d.store.passages)
    (hmoves : Moves d.store st' sid) :
    Agrees bodyOf { d with store := st' } sid := by
  intro cs hcs doc hdoc hvec
  dsimp only at hcs hdoc
  cases hmoves with
  | same hsame =>
      refine h hsame cs (hsame ▸ hcs) doc hdoc ?_
      obtain ⟨r, hr, hid⟩ := hvec
      dsimp only at hr
      rw [hpassages] at hr
      exact ⟨r, hr, hid⟩
  | deleted hdel =>
      rw [findCurrent_eq_none_of_deleted hdel] at hcs
      cases hcs
  | fresh cs' hcs' hrows =>
      rw [hcs', Option.some.injEq] at hcs
      subst hcs
      obtain ⟨r, hr, hid⟩ := hvec
      exact absurd hid (hrows r hr)

/-! ### Vectors -/

theorem embedChunks_ok {m : Model} {chunks : List String}
    {blobs : List Bytes}
    (h : embedChunks (m.embedder env) chunks = .ok blobs) :
    blobs = chunks.map (env.vec m.id) := by
  induction chunks generalizing blobs with
  | nil =>
      cases h
      rfl
  | cons chunk rest ih =>
      rw [embedChunks] at h
      split at h
      · cases h
      · next blob hblob =>
          split at h
          · cases h
          · next blobs' hblobs =>
              cases h
              have hvec : blob = env.vec m.id chunk := by
                simp only [Model.embedder] at hblob
                split at hblob
                · cases hblob
                · exact (Except.ok.inj hblob).symm
              rw [List.map_cons, ← ih hblobs, hvec]

theorem mem_storeSessionPassages {m : Model} {st : Store} {eventId : String}
    {chunks : List String} {r : PassageRow}
    (hr : r ∈ (storeSessionPassages (m.embedder env) st eventId
      chunks).1.passages) :
    r ∈ st.passages ∨ (r.eventId = eventId ∧
      ∃ text, chunks[r.passageIx]? = some text ∧
        r.embedding = env.vec r.modelId text) := by
  unfold storeSessionPassages at hr
  split at hr
  · exact .inl hr
  · next blobs hblobs =>
      rw [embedChunks_ok hblobs] at hr
      have hfold : ∀ (new rows : List PassageRow),
          r ∈ new.foldl upsertPassage rows → r ∈ rows ∨ r ∈ new := by
        intro new
        induction new with
        | nil => exact fun rows h => .inl h
        | cons row new ih =>
            intro rows h
            rcases ih _ h with hrows | hnew
            · rcases mem_upsertPassage.1 hrows with rfl | ⟨hold, -⟩
              · exact .inr List.mem_cons_self
              · exact .inl hold
            · exact .inr (List.mem_cons_of_mem row hnew)
      rcases hfold _ _ hr with hold | hnew
      · exact .inl hold
      · obtain ⟨⟨blob, ix⟩, hmem, rfl⟩ := List.mem_map.mp hnew
        rw [List.mk_mem_zipIdx_iff_getElem?, List.getElem?_map,
          Option.map_eq_some_iff] at hmem
        obtain ⟨text, htext, rfl⟩ := hmem
        exact .inr ⟨rfl, text, htext, rfl⟩

/-- Embedding the chunks of the current capture's own body, where the
document is of that body. -/
theorem Whole.persist (h : Whole env bodyOf d) {sid : String}
    {cs : CurrentSession} (hcs : findCurrent d.store.log sid = some cs)
    (hfile : ∀ doc, d.files sid = some doc →
      recoveredBody doc = bodyOf cs.sha256) (m : Model) :
    Whole env bodyOf { d with
      store := (storeSessionPassages (m.embedder env) d.store cs.eventId
        (chunkText (bodyOf cs.sha256))).1 } := by
  have hlog := storeSessionPassages_log (m.embedder env) d.store cs.eventId
    (chunkText (bodyOf cs.sha256))
  have hmem := fun r => @mem_storeSessionPassages env m d.store cs.eventId
    (chunkText (bodyOf cs.sha256)) r
  generalize (storeSessionPassages (m.embedder env) d.store cs.eventId
    (chunkText (bodyOf cs.sha256))).1 = st' at hlog hmem
  obtain ⟨-, ev, hev, hevid, hparsed, -⟩ := h.kept.log.current hcs
  refine ⟨⟨hlog ▸ h.kept.log, ?_, ?_⟩, ?_⟩
  · intro r hr
    dsimp only at hr ⊢
    rw [hlog]
    rcases hmem r hr with hold | ⟨hid, hrow⟩
    · exact h.kept.rows r hold
    · exact ⟨ev, hev, hevid.trans hid.symm, cs, hparsed, hrow⟩
  · intro s doc hdoc
    dsimp only at hdoc ⊢
    rw [hlog]
    exact h.kept.files s doc hdoc
  · intro s cs' hcs' doc hdoc hvec
    dsimp only at hcs' hdoc
    rw [hlog] at hcs'
    obtain ⟨r, hr, hid⟩ := hvec
    rcases hmem r hr with hold | ⟨hid', -⟩
    · exact h.agrees s cs' hcs' doc hdoc ⟨r, hold, hid⟩
    · -- the capture just embedded is of one session
      obtain ⟨e, he, heid, hecap⟩ := exists_of_findCurrent hcs'
      have hs : s = sid := h.kept.log.session_unique hcs he
        (heid.trans (hid.symm.trans hid')) hecap
      subst hs
      rw [hcs, Option.some.injEq] at hcs'
      subst hcs'
      exact hfile doc hdoc

theorem Whole.persistIfAbsent (h : Whole env bodyOf d) {sid : String}
    {cs : CurrentSession} (hcs : findCurrent d.store.log sid = some cs)
    {body : String} (hbody : body = bodyOf cs.sha256)
    (hfile : ∀ doc, d.files sid = some doc →
      recoveredBody doc = bodyOf cs.sha256) (passages : Option Model) :
    Whole env bodyOf { d with
      store := persistPassagesIfAbsent env passages d.store cs.eventId
        body } := by
  subst hbody
  unfold persistPassagesIfAbsent
  split
  · exact h
  · next m =>
      split
      · exact h.persist hcs hfile m
      · exact h

/-! ### Steps -/

/-- A document of a real render, read back. -/
theorem recoveredBody_document {id : CaptureIdentity} {r : Rendered}
    (hvalid : validSessionId id.sessionId = true)
    (hsize : (Utf8.encodeText (r.document id).toList).length ≤
      maxCaptureMdBytes) : recoveredBody (r.document id) = r.body := by
  have hsafe : (r.header id).LineSafe := ⟨hvalid, r.sha256_hex⟩
  rw [recoveredBody, readCaptureMarkdown_eq hsize, Rendered.document,
    captureBody_composeDocument hsafe, String.ofList_toList]

/-- Recording a capture: the sessions of the others are left alone, and the
store is as it was unless the capture is there already or is refused. -/
theorem Kept.captures {c : Call} {sm : SessionMeta} {out : Outcome String}
    (h : Kept env bodyOf d)
    (hc : Captures env.dateLabel c.m₁ c.m₂ d.store sm out)
    (hother : ∀ sid, sm.sessionId ≠ sid → Agrees bodyOf d sid)
    (hsame : ∀ prev, findCurrent d.store.log sm.sessionId = some prev →
      prev.sha256 = sm.sha256 → Agrees bodyOf d sm.sessionId)
    (hrefused : (∀ prev, findCurrent d.store.log sm.sessionId = some prev →
      prev.sha256 ≠ sm.sha256 ∧ ∀ st' ids, d.store.appendPair c.m₁ c.m₂
        (groundTruthSupersedeEvent prev.eventId)
        (sessionCapturedEvent env.dateLabel sm) ≠ (st', .ok ids)) →
      Agrees bodyOf d sm.sessionId) :
    Whole env bodyOf { d with store := out.1 } ∧
      (∀ e ∈ d.store.log, e ∈ out.1.log) ∧
      ∀ ev, out.2 = .ok ev → ∃ cs,
        findCurrent out.1.log sm.sessionId = some cs ∧ cs.eventId = ev ∧
          cs.sha256 = sm.sha256 := by
  -- the sessions but this one agree; this one does where the store is kept
  have hall : Agrees bodyOf d sm.sessionId → ∀ sid, Agrees bodyOf d sid := by
    intro hthis sid
    by_cases hsid : sm.sessionId = sid
    · exact hsid ▸ hthis
    · exact hother sid hsid
  cases hc with
  | same prev hprev hsha =>
      refine ⟨⟨h, hall (hsame prev hprev hsha)⟩, fun e he => he, ?_⟩
      intro ev hev
      cases hev
      exact ⟨prev, hprev, rfl, hsha⟩
  | refused e hprev =>
      refine ⟨⟨h, hall (hrefused hprev)⟩, fun e he => he, ?_⟩
      intro ev hev
      cases hev
  | recorded st' id res hres hlog hgrows hpassages hfresh hcurrent hothers =>
      have hmoves : ∀ sid, Moves d.store st' sid := by
        intro sid
        by_cases hsid : sm.sessionId = sid
        · subst hsid
          refine .fresh _ hcurrent fun r hr heq => ?_
          rw [hpassages] at hr
          obtain ⟨ev, hev, hevid, -⟩ := h.rows r hr
          exact hfresh ev hev (hevid.trans heq)
        · exact .same (hothers sid hsid)
      refine ⟨⟨h.relog hlog hgrows hpassages hmoves, fun sid => ?_⟩, hgrows,
        ?_⟩
      · by_cases hsid : sm.sessionId = sid
        · subst hsid
          refine Agrees.relog (fun heq => ?_) hpassages (hmoves _)
          -- the capture found before is not the fresh one
          rw [hcurrent] at heq
          obtain ⟨e, he, heid, -⟩ := exists_of_findCurrent heq.symm
          exact absurd heid (hfresh e he)
        · exact Agrees.relog (fun _ => hother sid hsid) hpassages
            (hmoves sid)
      · intro ev hev
        refine ⟨sm.current id, hcurrent, (hres ev hev).symm, rfl⟩

theorem Whole.store (h : Whole env bodyOf d) {c : Call} {stop : Stop}
    {id : CaptureIdentity} {r : Rendered}
    (hk : (Step.store c stop id r).Keeps env bodyOf d) :
    Whole env bodyOf (storeCapture env c stop d id r).1 := by
  obtain ⟨hbody, hsize, hrecorded⟩ := hk
  unfold storeCapture
  split
  · exact h
  next hvalid =>
  rw [Bool.not_eq_true, Bool.not_eq_false'] at hvalid
  split
  · exact h
  have hdoc : recoveredBody (r.document id) = bodyOf r.sha256 := by
    rw [recoveredBody_document hvalid hsize, hbody]
  have hsm : MetaSound (r.sessionMeta env id) :=
    ⟨hvalid, r.sha256_hex, r.startedAt_i64, r.endedAt_i64, r.approxBytes_u64⟩
  have hkept : Kept env bodyOf (d.write id.sessionId (r.document id)) :=
    h.kept.write ⟨r.header id, r.body, rfl, rfl, ⟨hvalid, r.sha256_hex⟩,
      ⟨r.startedAt_i64, r.endedAt_i64, r.approxBytes_u64⟩, .inl hdoc⟩
  have hother : ∀ sid, id.sessionId ≠ sid →
      Agrees bodyOf (d.write id.sessionId (r.document id)) sid :=
    fun sid hne => (h.agrees sid).write (Ne.symm hne) _
  have hfile : ∀ doc, (d.write id.sessionId (r.document id)).files
      id.sessionId = some doc → recoveredBody doc = bodyOf r.sha256 := by
    intro doc hwritten
    rw [DataDir.write] at hwritten
    dsimp only at hwritten
    rw [if_pos rfl, Option.some.injEq] at hwritten
    rw [← hwritten, hdoc]
  -- the document is of another body than the capture's vectors
  have hthis : (∀ prev, findCurrent d.store.log id.sessionId = some prev →
      HasVectors d prev → prev.sha256 = r.sha256) →
      Agrees bodyOf (d.write id.sessionId (r.document id)) id.sessionId := by
    intro hsha cs hcs doc hwritten hvec
    rw [hsha cs hcs hvec]
    exact hfile doc hwritten
  dsimp only
  split
  · next hstop =>
      refine ⟨hkept, fun sid => ?_⟩
      by_cases hsid : id.sessionId = sid
      · subst hsid
        refine hthis fun prev hprev hvec => ?_
        by_contra hne
        exact (hrecorded prev hprev hvec hne).1 hstop
      · exact hother sid hsid
  · have hcases : Captures env.dateLabel c.m₁ c.m₂
        (d.write id.sessionId (r.document id)).store (r.sessionMeta env id)
        (captureSession env.dateLabel (c.model.embedder env) c.m₁ c.m₂
          (d.write id.sessionId (r.document id)).store
          (r.sessionMeta env id)) :=
      captureSession_cases hkept.log hsm
    obtain ⟨hwhole, -, hev⟩ := hkept.captures (c := c) hcases hother
      (fun prev hprev hsha => hthis fun prev' hprev' _ => by
        have heq : prev = prev' :=
          Option.some.inj (hprev.symm.trans hprev')
        rw [← heq]
        exact hsha)
      (fun hall => hthis fun prev hprev hvec => by
        by_contra hne
        obtain ⟨-, st, ids, hok⟩ := hrecorded prev hprev hvec hne
        exact (hall prev hprev).2 st ids hok)
    split
    · next st e heq =>
        rw [heq] at hwhole
        exact hwhole
    · next st ev heq =>
        rw [heq] at hwhole hev
        split
        · exact hwhole
        · obtain ⟨cs, hcs, rfl, hsha⟩ := hev ev rfl
          exact hwhole.persistIfAbsent hcs (hbody.trans (hsha ▸ rfl))
            (fun doc hwritten => by rw [hsha]; exact hfile doc hwritten)
            c.passages

theorem Whole.delete (h : Whole env bodyOf d) (m : Mint) (stop : Stop)
    (sid : String) :
    Whole env bodyOf (deleteCapture m stop d sid).1 := by
  -- the tombstone first, whatever comes of the document
  have hstone : Whole env bodyOf
      { d with store := (deleteSession m d.store sid).1 } := by
    unfold deleteSession
    split
    · exact h
    · rcases d.store.append_cases m (sessionDeletedEvent sid) with
        ⟨e, happ⟩ | ⟨stored, hs, happ⟩
      · rw [happ]
        exact h
      · rw [happ]
        have htype : stored.eventType = sessionDeletedEventType :=
          hs.eventType_eq
        have hsession : stored.content.getStr? "session_id" = some sid := by
          rw [hs.content_of_none rfl]
          rfl
        have hlog : LogSound (d.store.push stored).log :=
          h.kept.log.stored hs
            (fun id hid => absurd (htype.symm.trans hid.1) (by decide))
            fun hcap => absurd (htype.symm.trans hcap) (by decide)
        have hmoves : ∀ s, Moves d.store (d.store.push stored) s := by
          intro s
          by_cases hs' : s = sid
          · subst hs'
            exact .deleted ⟨stored, by simp, htype, hsession⟩
          · refine .same (findCurrent_append ?_ ?_ ?_)
            · exact fun hcap => absurd (htype.symm.trans hcap.1) (by decide)
            · intro hdel
              have heq := hdel.2
              rw [hsession, Option.some.injEq] at heq
              exact hs' heq.symm
            · intro id hid
              exact absurd (htype.symm.trans hid.1) (by decide)
        exact ⟨h.kept.relog hlog (fun e he => by simp [he]) rfl hmoves,
          fun s => Agrees.relog (fun _ => h.agrees s) rfl (hmoves s)⟩
  unfold deleteCapture
  split
  · exact h
  · generalize deleteSession m d.store sid = out at hstone
    obtain ⟨st, res⟩ := out
    dsimp only at hstone ⊢
    split
    · split
      · exact hstone.remove sid
      · exact hstone
    · split
      · exact hstone.remove sid
      · exact hstone
    · exact hstone

/-- The header of a stub is as sound as the capture it is made from. -/
theorem stubHeader_sound {log : EventLog} {sid : String}
    {cs : CurrentSession} (h : LogSound log)
    (hcs : findCurrent log sid = some cs) :
    (stubHeader cs).LineSafe ∧ (stubHeader cs).InRange := by
  obtain ⟨-, -, -, -, -, sm, hsm, hcurrent⟩ := h.current hcs
  rw [hcurrent]
  exact ⟨⟨hsm.valid, hsm.hash⟩, hsm.range.startedAt, hsm.range.endedAt,
    hsm.range.approxBytes⟩

theorem Whole.dangling (h : Whole env bodyOf d) {sid : String}
    (hk : (Step.dangling sid).Keeps env bodyOf d) :
    Whole env bodyOf (healDangling d sid) := by
  unfold healDangling
  split
  · exact h
  · next cs hcs =>
      split
      · exact h
      · split
        · exact h
        · next hmissing =>
            have hsid := (h.kept.log.current hcs).1
            rw [Bool.not_eq_true, Option.isSome_eq_false_iff,
              Option.isNone_iff_eq_none, hsid] at hmissing
            obtain ⟨hsafe, hrange⟩ := stubHeader_sound h.kept.log hcs
            have hnone := hk cs hcs hmissing
            rw [hsid]
            refine ⟨h.kept.write ⟨stubHeader cs, stubBody, rfl, hsid, hsafe,
              hrange, .inr (.inl (by rw [hcs]; simp))⟩, fun s => ?_⟩
            by_cases hs : s = sid
            · subst hs
              intro cs' hcs' doc _ hvec
              have heq : cs = cs' := Option.some.inj (hcs.symm.trans hcs')
              exact absurd hvec (heq ▸ hnone)
            · exact (h.agrees s).write hs _

theorem Whole.reembed (h : Whole env bodyOf d) {m : Model} {sid : String}
    (hk : (Step.reembed m sid).Keeps env bodyOf d) :
    Whole env bodyOf (reembedPassages env m d sid) := by
  unfold reembedPassages
  split
  · next cs doc hcs hdoc =>
      have hbody := hk cs hcs doc hdoc
      rw [hbody]
      exact h.persist hcs (hk cs hcs) m
  · exact h

theorem Whole.orphan (h : Whole env bodyOf d) (c : Call) (stop : Stop)
    (stem : String) : Whole env bodyOf (healOrphan env c stop d stem) := by
  unfold healOrphan
  split
  · exact h
  next doc hdoc =>
  split
  · exact h
  next hnone =>
  split
  · exact h
  next sm hparse =>
  split
  · exact h
  split
  · exact h
  obtain ⟨hd, body, hcompose, hsid, hsafe, hrange, hwhy⟩ :=
    h.kept.files stem doc hdoc
  -- the front matter read is the one composed
  have hsm : sm = hd.capturedMeta (env.mdPath stem) := by
    rw [hcompose] at hparse
    exact parseCapturedMeta_prefix hsafe hrange hparse
  have hstem : sm.sessionId = stem := by
    rw [hsm]
    exact hsid
  have hsound : MetaSound sm := by
    rw [hsm]
    exact ⟨hsafe.sessionId, hsafe.sha256, hrange.startedAt, hrange.endedAt,
      hrange.approxBytes⟩
  have hcases : Captures env.dateLabel c.m₁ c.m₂ d.store sm
      (captureSession env.dateLabel (c.model.embedder env) c.m₁ c.m₂ d.store
        sm) := captureSession_cases h.kept.log hsound
  obtain ⟨hwhole, hgrows, hev⟩ := h.kept.captures (c := c) hcases
    (fun sid _ => h.agrees sid) (fun _ _ _ => h.agrees _)
    (fun _ => h.agrees _)
  split
  · next st ev heq =>
      rw [heq] at hwhole hgrows hev
      split
      · exact hwhole
      · obtain ⟨cs, hcs, rfl, hsha⟩ := hev ev rfl
        -- the document is no stub: its session was not captured before
        have hbody : recoveredBody doc = bodyOf cs.sha256 := by
          rw [hsha, hsm]
          rcases hwhy with hbody | hcur | ⟨e, he, hdel⟩
          · exact hbody
          · exact absurd (Option.isSome_iff_ne_none.mpr hcur) hnone
          · have hgone := findCurrent_eq_none_of_deleted
              ⟨e, hgrows e he, hdel⟩
            rw [← hstem, hcs] at hgone
            cases hgone
        exact hwhole.persistIfAbsent hcs hbody (fun doc' hdoc' => by
          rw [hstem] at hdoc'
          have heq' : doc = doc' := Option.some.inj (hdoc.symm.trans hdoc')
          rw [← heq', hbody]) c.passages
  · next st e heq =>
      rw [heq] at hwhole
      split
      · exact hwhole
      · exact hwhole.remove stem
  · next st e _ heq =>
      rw [heq] at hwhole
      exact hwhole

/-- **One step.** -/
theorem Whole.exec (h : Whole env bodyOf d) {step : Step}
    (hk : step.Keeps env bodyOf d) :
    Whole env bodyOf (d.exec env step) := by
  cases step with
  | store c stop id r => exact h.store hk
  | delete m stop sid => exact h.delete m stop sid
  | orphan c stop stem => exact h.orphan c stop stem
  | dangling sid => exact h.dangling hk
  | reembed m sid => exact h.reembed hk
  | lost sid => exact h.remove sid

end Invariant

/-! ## A session of two turns -/

namespace CutShort

/-- The session `s`. -/
def session : CaptureIdentity := ⟨"s", "p", "claude-code"⟩

/-- A transcript of one turn. -/
def firstTurn : Rendered :=
  { title := "t"
    body := "We deploy on one host."
    sha256 := "aa"
    startedAt := 1
    endedAt := 2
    approxBytes := 3
    droppedTornTail := false
    oversizedLines := 0
    skippedUnknown := 0
    sha256_hex := by decide
    startedAt_i64 := by decide
    endedAt_i64 := by decide
    approxBytes_u64 := by decide }

/-- The transcript after another turn. -/
def secondTurn : Rendered :=
  { firstTurn with
    body := "We moved off that host."
    sha256 := "bb"
    sha256_hex := by decide }

/-- A model whose vector of a text is its text. -/
def env : Env :=
  { dir := "/air"
    dateLabel := fun _ => "today"
    vec := fun _ text => text.toList.map fun c => UInt8.ofNat c.toNat }

/-- A model that embeds every text. -/
def model : Model := ⟨"m", 1, fun _ => none⟩

/-- A call that goes through, with its two identifiers. -/
def call (id₁ id₂ : String) : Call :=
  ⟨none, .plain id₁, .plain id₂, model, some model⟩

/-- The session is captured after each turn. -/
def twoTurns : List Step :=
  [.store (call "e1" "e2") .done session firstTurn,
    .store (call "e3" "e4") .done session secondTurn]

/-- The daemon dies between the document and the event of a re-capture, and
heals at its next start. -/
def recapture : List Step :=
  [.store (call "e1" "e2") .done session firstTurn,
    .store (call "e3" "e4") .written session secondTurn,
    .orphan (call "e5" "e6") .done "s", .dangling "s"]

/-- The document is lost, and heals to a stub. -/
def stub : List Step :=
  [.store (call "e1" "e2") .done session firstTurn, .lost "s",
    .dangling "s"]

/-- The capture of the first transcript. -/
def captured : CurrentSession :=
  (firstTurn.sessionMeta env session).current "e1"

theorem size_document (r : Rendered) (hr : r = firstTurn ∨ r = secondTurn) :
    (Utf8.encodeText (r.document session).toList).length ≤
      maxCaptureMdBytes := by
  rw [Rendered.document, composeDocument, String.toList_ofList]
  rcases hr with rfl | rfl <;> decide +kernel

theorem body_secondTurn :
    recoveredBody (secondTurn.document session) = secondTurn.body := by
  exact recoveredBody_document (by decide)
    (size_document secondTurn (.inr rfl))

theorem body_stub : recoveredBody (regeneratedDocument captured) =
    stubBody := by
  have hsafe : (stubHeader captured).LineSafe := ⟨by decide, by decide⟩
  have hsize : (Utf8.encodeText (regeneratedDocument captured).toList).length ≤
      maxCaptureMdBytes := by
    rw [regeneratedDocument, composeDocument, String.toList_ofList]
    decide +kernel
  rw [recoveredBody, readCaptureMarkdown_eq hsize, regeneratedDocument,
    captureBody_composeDocument hsafe, String.ofList_toList]

/-- The body each of the two transcripts renders to. -/
def bodyOf (sha256 : String) : String :=
  if sha256 = "aa" then firstTurn.body else secondTurn.body

end CutShort

/-- **Passage vectors match passage texts.** In every run, from a new data
directory, whose steps keep to what the matching needs, the vectors match the
texts in every state. -/
theorem passages_match (env : Env) (bodyOf : String → String)
    (steps : List Step)
    (h : Trace.Meets (DataDir.exec env) (fun d s => s.Keeps env bodyOf d)
      .empty steps) (n : Nat) :
    Matched env (Trace.run (DataDir.exec env) .empty (steps.take n)) :=
  (Trace.run_take_inv_of_meets (Whole env bodyOf)
    (fun _ _ hw hk => hw.exec hk) whole_empty h n).matched

open CutShort in
theorem passages_match_recaptured :
    Matched env (Trace.run (DataDir.exec env) .empty (twoTurns.take 2)) := by
  refine passages_match env bodyOf twoTurns
    (show (_ ∧ _ ∧ _) ∧ (_ ∧ _ ∧ _) ∧ True from
      ⟨⟨by decide, size_document _ (.inl rfl), fun prev hprev => ?_⟩,
        ⟨by decide, size_document _ (.inr rfl), fun prev hprev _ _ => ?_⟩,
        trivial⟩) 2
  · cases hprev
  · have heq : captured = prev := Option.some.inj hprev
    subst heq
    exact ⟨by decide, _, _, rfl⟩

/-! ## Runs that do otherwise -/

/-- A vector of the session's current capture that is not that of the chunk
its ordinal has in the body. -/
def mismatched (env : Env) (d : DataDir) (sid body : String) : Bool :=
  match findCurrent d.store.log sid with
  | some cs =>
      d.store.passages.any fun r => r.eventId == cs.eventId &&
        match (chunkText body)[r.passageIx]? with
        | some text => r.embedding != env.vec r.modelId text
        | none => true
  | none => false

theorem not_matched {env : Env} {d : DataDir} {sid doc body : String}
    (hdoc : d.files sid = some doc) (hbody : recoveredBody doc = body)
    (h : mismatched env d sid body = true) : ¬ Matched env d := by
  intro hmatched
  unfold mismatched at h
  split at h
  · next cs hcs =>
      rw [List.any_eq_true] at h
      obtain ⟨r, hr, hcheck⟩ := h
      rw [Bool.and_eq_true, beq_iff_eq] at hcheck
      obtain ⟨-, text, htext, hvec⟩ := hmatched sid cs hcs doc hdoc r hr
        hcheck.1
      unfold sessionPassageText at htext
      split at htext
      · cases htext
      · rw [hdoc, Option.bind_some, hbody] at htext
        rw [htext, hvec] at hcheck
        simp at hcheck
  · cases h

open CutShort in
/-- **The matching fails** after a re-capture that died between its document
and its event, and under a recovery stub. -/
theorem recapture_cut_short :
    ¬ Matched env (Trace.run (DataDir.exec env) .empty recapture) ∧
      ¬ Matched env (Trace.run (DataDir.exec env) .empty stub) :=
  ⟨@not_matched _ _ "s" _ _ rfl body_secondTurn (by decide +kernel),
    @not_matched _ _ "s" _ _ rfl body_stub (by decide +kernel)⟩

end AirNote.CaptureFiles
