import DrawingMachine.Base.PyEquality
import Mathlib.Logic.Function.Basic

/-!
# The observations of the machine coordinator

The chain publishes its executions to the coordinator, which keeps the newest projection of each
and what `status` shows of it. A publication that is older than what was published before is
ignored, and one that contradicts what is shown is refused. Here the publications may be any
documents, in any order.
-/

namespace DrawingMachine

namespace MachineCoordinator

open PyValue

variable {φ β : Type}

/-! ### Documents and their encoding -/

/-- `json.dumps` with sorted keys, which raises a `ValueError` where a number is not finite, and
`json.loads`. What is read back has its keys in order. -/
structure SortedJson (φ β : Type) where
  dumps : PyValue φ → Option β
  loads : β → PyValue φ
  /-- What a number is worth. -/
  worth : φ → ℚ
  loads_dumps : ∀ v b, v.distinct = true → dumps v = some b → loads b = v.canonical

/-- What a publication raises. -/
inductive ProjectionError where
  /-- A `DrawingMachineError` of the service. -/
  | machine (code message : String)
  /-- The `ValueError` of `json.dumps`. -/
  | notFinite
  deriving DecidableEq, Repr

/-- The document is no projection. -/
def projectionInvalid (message : String) : ProjectionError :=
  .machine "MACHINE_COORDINATOR_PROJECTION_INVALID" message

/-- The document contradicts what was published before. -/
def projectionConflict (message : String) : ProjectionError :=
  .machine "MACHINE_COORDINATOR_PROJECTION_CONFLICT" message

/-- The entries of an object. -/
def entries : PyValue φ → List (PyStr × PyValue φ)
  | .obj entries => entries
  | _ => []

/-- The document is an object or null. -/
def objectOrNull : PyValue φ → Bool
  | .null => true
  | .obj _ => true
  | _ => false

/-- The document is an integer that is not less than the other one. -/
def notLess : PyValue φ → PyValue φ → Bool
  | .int n, .int m => n ≤ m
  | _, _ => false

/-! ### The publication -/

/-- The encoded projections and observations under the ids of their executions, and the execution
that is shown when no id is given. -/
structure Published (β : Type) where
  projections : PyStr → Option β
  observations : PyStr → Option β
  activeExecutionId : Option PyStr

/-- Nothing was published. -/
def Published.empty : Published β := ⟨fun _ => none, fun _ => none, none⟩

variable (json : SortedJson φ β)

/-- The counters of a progress document. -/
def progressFields : List String := ["execution_revision", "acknowledged", "ok_count", "error_count"]

/-- The progress that was shown is not continued. -/
def progressRegressed : PyValue φ → PyValue φ → Bool
  | .null, _ => false
  | .obj before, .obj after =>
      progressFields.any fun field => !notLess (valueAt before field) (valueAt after field)
  | _, _ => true

/-- The outcome that was shown is not the same one. -/
def outcomeChanged (before after : PyValue φ) : Bool :=
  match before with
  | .null => false
  | _ => !equal json.worth before after

/-- The progress does not regress, and the outcome does not change. -/
def requireMonotonicObservation (previous current : List (PyStr × PyValue φ)) :
    Except ProjectionError Unit :=
  if progressRegressed (valueAt previous "progress") (valueAt current "progress") = true then
    .error (projectionConflict "durable progress projection regressed")
  else if outcomeChanged json (valueAt previous "last_outcome") (valueAt current "last_outcome") =
      true then
    .error (projectionConflict "durable outcome projection changed")
  else .ok ()

/-- The observation is kept when it does not regress. -/
def acceptObservation (s : Published β) (id : PyStr) (encoded : β) :
    Except ProjectionError (Published β) :=
  let accepted := { s with observations := Function.update s.observations id (some encoded) }
  match s.observations id with
  | none => .ok accepted
  | some previous =>
      match requireMonotonicObservation json (entries (json.loads previous))
          (entries (json.loads encoded)) with
      | .error error => .error error
      | .ok () => .ok accepted

/-- The encodings of an execution and of its observation. -/
def encodeProjection (projection execution : List (PyStr × PyValue φ)) :
    Except ProjectionError (β × β) :=
  match json.dumps (.obj execution) with
  | none => .error .notFinite
  | some encoded =>
      if objectOrNull (valueAt projection "progress") = false then
        .error (projectionInvalid "progress projection must be a plain object or null")
      else if objectOrNull (valueAt projection "last_outcome") = false then
        .error (projectionInvalid "outcome projection must be a plain object or null")
      else
        match json.dumps (record
            [ ("schema_version", .int 1),
              ("execution", .obj execution),
              ("progress", valueAt projection "progress"),
              ("last_outcome", valueAt projection "last_outcome") ]) with
        | none => .error .notFinite
        | some encodedObservation => .ok (encoded, encodedObservation)

/-- The execution is over, or it is retired. -/
def ended (execution : List (PyStr × PyValue φ)) : Bool :=
  (match valueAt execution "phase" with
    | .str phase => phase = PyStr.ofString "COMPLETED"
    | _ => false) ||
  (match valueAt execution "retired" with
    | .bool retired => retired
    | _ => false)

/-- The revision of the projection that was published before. -/
def previousRevision (s : Published β) (id : PyStr) : Option Int :=
  match s.projections id with
  | none => none
  | some previous =>
      match valueAt (entries (json.loads previous)) "revision" with
      | .int revision => some revision
      | _ => none

/-- The projection is new: it is kept even where its observation is refused. -/
def renewProjection (s : Published β) (id : PyStr) (ended : Bool) (encoded encodedObservation : β) :
    Except ProjectionError (Option (PyValue φ)) × Published β :=
  let renewed := { s with projections := Function.update s.projections id (some encoded) }
  match acceptObservation json renewed id encodedObservation with
  | .error error => (.error error, renewed)
  | .ok accepted =>
      (.ok (some (json.loads encodedObservation)),
        { accepted with
          activeExecutionId :=
            if ended then if s.activeExecutionId = some id then none else s.activeExecutionId
            else some id })

/-- What a publication does while it holds the lock. -/
def storeProjection [DecidableEq β] (s : Published β) (id : PyStr) (revision : Int) (ended : Bool)
    (encoded encodedObservation : β) :
    Except ProjectionError (Option (PyValue φ)) × Published β :=
  match previousRevision json s id with
  | none => renewProjection json s id ended encoded encodedObservation
  | some previous =>
      if revision < previous then (.ok none, s)
      else if revision = previous then
        if s.projections id ≠ some encoded then
          (.error (projectionConflict "equal machine projection revision changed immutable fields"),
            s)
        else
          match acceptObservation json s id encodedObservation with
          | .error error => (.error error, s)
          | .ok accepted => (.ok none, accepted)
      else renewProjection json s id ended encoded encodedObservation

/-- A document is published: what the call returns or raises, and what is published then. -/
def publishProjection [DecidableEq β] (s : Published β) :
    PyValue φ → Except ProjectionError (Option (PyValue φ)) × Published β
  | .obj projection =>
      match valueAt projection "execution" with
      | .null => (.ok (some (.obj projection)), s)
      | .obj execution =>
          match valueAt execution "execution_id", valueAt execution "revision" with
          | .str id, .int revision =>
              if id = [] ∨ revision < 0 then
                (.error (projectionInvalid "execution projection identity is invalid"), s)
              else
                match encodeProjection json projection execution with
                | .error error => (.error error, s)
                | .ok (encoded, encodedObservation) =>
                    storeProjection json s id revision (ended execution) encoded encodedObservation
          | _, _ => (.error (projectionInvalid "execution projection identity is invalid"), s)
      | _ => (.error (projectionInvalid "execution projection must be a plain object"), s)
  | _ => (.error (projectionInvalid "machine projection must be a plain object"), s)

/-- The observation that `status` selects: that of an execution, or of the active one. -/
def observation (s : Published β) (executionId : Option PyStr) : List (PyStr × PyValue φ) :=
  let selected := match executionId with
    | none => s.activeExecutionId
    | some id => some id
  match selected.bind s.observations with
  | none => []
  | some encoded => entries (json.loads encoded)

/-- The document that `status` returns. -/
def status (s : Published β) (serviceEpoch : PyStr) (accepting : Bool)
    (executionId : Option PyStr) : List (PyStr × PyValue φ) :=
  [ (PyStr.ofString "schema_version", .int 1),
    (PyStr.ofString "service_epoch", .str serviceEpoch),
    (PyStr.ofString "accepting", .bool accepting),
    (PyStr.ofString "execution", valueAt (observation json s executionId) "execution"),
    (PyStr.ofString "progress", valueAt (observation json s executionId) "progress"),
    (PyStr.ofString "last_outcome", valueAt (observation json s executionId) "last_outcome") ]

/-! ### Later documents -/

/-- A document that can be published: no object of Python has a key twice. -/
abbrev Document (φ : Type) : Type := { v : PyValue φ // v.distinct = true }

/-- Documents are published one after another, and what they raise is left to the chain. -/
def publishAll [DecidableEq β] (s : Published β) (documents : List (Document φ)) : Published β :=
  documents.foldl (fun s document => (publishProjection json s document.val).2) s

/-- What is published after the documents, when nothing was published before. -/
def publishedBy [DecidableEq β] (documents : List (Document φ)) : Published β :=
  publishAll json .empty documents

/-- The execution has a later revision, or it is the same execution. -/
def LaterExecution (before after : PyValue φ) : Prop :=
  ∃ e e' r r', before = .obj e ∧ after = .obj e' ∧ valueAt e "revision" = .int r ∧
    valueAt e' "revision" = .int r' ∧ (r < r' ∨ r = r' ∧ e = e')

/-- The counters of the progress have not become less. -/
def LaterProgress (before after : PyValue φ) : Prop :=
  before = .null ∨ ∃ p p', before = .obj p ∧ after = .obj p' ∧
    ∀ field ∈ progressFields, ∃ n m, valueAt p field = .int n ∧ valueAt p' field = .int m ∧ n ≤ m

/-- What is shown is not older than before: the execution has not gone back to an earlier revision,
nor is it another one at the same revision, the counters of the progress have not become less, and
the outcome stays. -/
structure NotOlder (previous current : List (PyStr × PyValue φ)) : Prop where
  execution : LaterExecution (valueAt previous "execution") (valueAt current "execution")
  progress : LaterProgress (valueAt previous "progress") (valueAt current "progress")
  outcome : valueAt previous "last_outcome" = .null ∨
    equal json.worth (valueAt previous "last_outcome") (valueAt current "last_outcome") = true

section

variable {json : SortedJson φ β}

/-- Later executions are later than earlier ones. -/
theorem LaterExecution.trans {u v w : PyValue φ} (h : LaterExecution u v)
    (h' : LaterExecution v w) :
  LaterExecution u w
  := by
  obtain ⟨e, e₁, r, r₁, rfl, rfl, hr, hr₁, hlater⟩ := h
  obtain ⟨e₂, e', r₂, r', heq, rfl, hr₂, hr', hlater'⟩ := h'
  obtain rfl := PyValue.obj.inj heq
  obtain rfl : r₁ = r₂ := PyValue.int.inj (hr₁.symm.trans hr₂)
  refine ⟨e, e', r, r', rfl, rfl, hr, hr', ?_⟩
  rcases hlater with hlt | ⟨rfl, rfl⟩
  · left
    rcases hlater' with hlt' | ⟨rfl, -⟩
    · omega
    · exact hlt
  · exact hlater'

/-- Later progress is later than earlier one. -/
theorem LaterProgress.trans {u v w : PyValue φ} (h : LaterProgress u v) (h' : LaterProgress v w) :
  LaterProgress u w
  := by
  rcases h with rfl | ⟨p, p₁, rfl, rfl, hcounts⟩
  · left
    rfl
  · right
    rcases h' with heq | ⟨p₂, p', heq, rfl, hcounts'⟩
    · cases heq
    · obtain rfl := PyValue.obj.inj heq
      refine ⟨p, p', rfl, rfl, ?_⟩
      intro field hfield
      obtain ⟨n, m, hn, hm, hle⟩ := hcounts field hfield
      obtain ⟨n', m', hn', hm', hle'⟩ := hcounts' field hfield
      obtain rfl : m = n' := PyValue.int.inj (hm.symm.trans hn')
      use n, m', hn, hm', hle.trans hle'

/-- What is shown last is not older than what was shown first. -/
theorem NotOlder.trans {u v w : List (PyStr × PyValue φ)} (h : NotOlder json u v)
    (h' : NotOlder json v w) :
  NotOlder json u w
  := by
  constructor
  · apply h.execution.trans h'.execution
  · apply h.progress.trans h'.progress
  · rcases h.outcome with hnull | hequal
    · left
      exact hnull
    · rcases h'.outcome with hnull | hequal'
      · left
        rw [hnull] at hequal
        apply eq_null_of_equal hequal
      · right
        apply equal_trans _ _ _ hequal hequal'

/-! ### The parts of a publication -/

/-- One integer is not less than another exactly when both are integers. -/
theorem notLess_iff {v w : PyValue φ} :
  notLess v w = true ↔ ∃ n m, v = .int n ∧ w = .int m ∧ n ≤ m
  := by
  cases v <;> cases w <;> simp [notLess]

/-- Progress that has not regressed. -/
theorem laterProgress_of_not_regressed {before after : PyValue φ}
    (h : progressRegressed before after = false) :
  LaterProgress before after
  := by
  unfold progressRegressed at h
  split at h
  · left
    rfl
  · rename_i p p'
    right
    refine ⟨p, p', rfl, rfl, ?_⟩
    intro field hfield
    have hfield' := List.any_eq_false.mp h field hfield
    apply notLess_iff.mp
    simpa using hfield'
  · cases h

/-- An outcome that has not changed. -/
theorem outcome_of_not_changed {before after : PyValue φ}
    (h : outcomeChanged json before after = false) :
  before = .null ∨ equal json.worth before after = true
  := by
  unfold outcomeChanged at h
  split at h
  · left
    rfl
  · right
    simpa using h

/-- An observation that is accepted: nothing else is published, and it is not older. -/
theorem acceptObservation_eq_ok {s s' : Published β} {id : PyStr} {encoded : β}
    (h : acceptObservation json s id encoded = .ok s') :
  s' = { s with observations := Function.update s.observations id (some encoded) } ∧
    ∀ previous, s.observations id = some previous →
      LaterProgress (valueAt (entries (json.loads previous)) "progress")
        (valueAt (entries (json.loads encoded)) "progress") ∧
      (valueAt (entries (json.loads previous)) "last_outcome" = .null ∨
        equal json.worth (valueAt (entries (json.loads previous)) "last_outcome")
          (valueAt (entries (json.loads encoded)) "last_outcome") = true)
  := by
  unfold acceptObservation at h
  split at h
  · rename_i hnone
    refine ⟨(Except.ok.inj h).symm, ?_⟩
    intro previous hprevious
    rw [hnone] at hprevious
    cases hprevious
  · rename_i previous hsome
    split at h
    · cases h
    · rename_i hmonotonic
      refine ⟨(Except.ok.inj h).symm, ?_⟩
      intro previous' hprevious
      obtain rfl := Option.some.inj (hsome.symm.trans hprevious)
      unfold requireMonotonicObservation at hmonotonic
      split at hmonotonic
      · cases hmonotonic
      · rename_i hprogress
        split at hmonotonic
        · cases hmonotonic
        · rename_i houtcome
          constructor
          · apply laterProgress_of_not_regressed
            simpa using hprogress
          · apply outcome_of_not_changed
            simpa using houtcome

/-- What the encodings of a publication are read back as. -/
structure Encodes (json : SortedJson φ β) (id : PyStr) (revision : Int)
    (encoded encodedObservation : β) : Prop where
  execution : ∃ e, json.loads encoded = .obj e ∧ valueAt e "execution_id" = .str id ∧
    valueAt e "revision" = .int revision
  observation : valueAt (entries (json.loads encodedObservation)) "execution" = json.loads encoded

/-- The document of an observation has no key twice when its parts have none. -/
theorem distinct_observation {execution progress outcome : PyValue φ}
    (hexecution : distinct execution = true) (hprogress : distinct progress = true)
    (houtcome : distinct outcome = true) :
  distinct (record
    [ ("schema_version", .int 1), ("execution", execution), ("progress", progress),
      ("last_outcome", outcome) ]) = true
  := by
  simp [record, distinct, distinctEntries, hexecution, hprogress, houtcome]

/-- The encodings of an execution and of its observation. -/
theorem encodes_of_ok {projection execution : List (PyStr × PyValue φ)} {id : PyStr}
    {revision : Int} {encoded encodedObservation : β}
    (hdistinct : distinct (.obj projection) = true)
    (hexecution : valueAt projection "execution" = .obj execution)
    (hid : valueAt execution "execution_id" = .str id)
    (hrevision : valueAt execution "revision" = .int revision)
    (h : encodeProjection json projection execution = .ok (encoded, encodedObservation)) :
  Encodes json id revision encoded encodedObservation
  := by
  have hdistinct' : distinct (.obj execution) = true := by
    rw [← hexecution]
    apply distinct_valueAt hdistinct
  unfold encodeProjection at h
  split at h
  · cases h
  · rename_i encoded' hdumps
    split at h
    · cases h
    · split at h
      · cases h
      · split at h
        · cases h
        · rename_i encodedObservation' hdumps'
          obtain ⟨rfl, rfl⟩ := Prod.mk.inj (Except.ok.inj h)
          have hloads := json.loads_dumps _ _ hdistinct' hdumps
          have hloads' := json.loads_dumps _ _ (distinct_observation hdistinct'
            (distinct_valueAt hdistinct _) (distinct_valueAt hdistinct _)) hdumps'
          constructor
          · refine ⟨_, hloads, ?_, ?_⟩
            · rw [valueAt_canonical (nodup_of_distinct hdistinct'), hid]
              rfl
            · rw [valueAt_canonical (nodup_of_distinct hdistinct'), hrevision]
              rfl
          · rw [hloads', hloads, record, canonical, entries, valueAt_canonical (by simp)]
            simp [valueAt, lookup]

/-! ### What a publication can do -/

/-- The observation is accepted: it is not older than what was shown. -/
def Accepts (json : SortedJson φ β) (s : Published β) (id : PyStr) (encodedObservation : β) :
    Prop :=
  ∀ previous, s.observations id = some previous →
    LaterProgress (valueAt (entries (json.loads previous)) "progress")
      (valueAt (entries (json.loads encodedObservation)) "progress") ∧
    (valueAt (entries (json.loads previous)) "last_outcome" = .null ∨
      equal json.worth (valueAt (entries (json.loads previous)) "last_outcome")
        (valueAt (entries (json.loads encodedObservation)) "last_outcome") = true)

/-- The ways in which a publication can end, with what is published then. -/
inductive Publication (json : SortedJson φ β) (s : Published β) :
    Except ProjectionError (Option (PyValue φ)) → Published β → Prop
  /-- Nothing changes. -/
  | unchanged (result : Except ProjectionError (Option (PyValue φ))) :
      Publication json s result s
  /-- The projection is new, and its observation is refused. -/
  | projected {id : PyStr} {revision : Int} {encoded encodedObservation : β}
      (hencodes : Encodes json id revision encoded encodedObservation)
      (hnew : ∀ r, previousRevision json s id = some r → r < revision) (error : ProjectionError) :
      Publication json s (.error error)
        { s with projections := Function.update s.projections id (some encoded) }
  /-- The projection is the one that was published before, and its observation is accepted. -/
  | confirmed {id : PyStr} {revision : Int} {encoded encodedObservation : β}
      (hencodes : Encodes json id revision encoded encodedObservation)
      (hsame : s.projections id = some encoded) (haccepts : Accepts json s id encodedObservation) :
      Publication json s (.ok none)
        { s with observations := Function.update s.observations id (some encodedObservation) }
  /-- The projection is new, and its observation is accepted. -/
  | renewed {id : PyStr} {revision : Int} {encoded encodedObservation : β}
      (hencodes : Encodes json id revision encoded encodedObservation)
      (hnew : ∀ r, previousRevision json s id = some r → r < revision)
      (haccepts : Accepts json s id encodedObservation) (active : Option PyStr)
      (hactive : active = some id ∨ active = none ∨ active = s.activeExecutionId) :
      Publication json s (.ok (some (json.loads encodedObservation)))
        { projections := Function.update s.projections id (some encoded)
          observations := Function.update s.observations id (some encodedObservation)
          activeExecutionId := active }

/-- A new projection is kept, with its observation or without. -/
theorem renewProjection_publication {s : Published β} {id : PyStr} {revision : Int} (ended : Bool)
    {encoded encodedObservation : β}
    (hencodes : Encodes json id revision encoded encodedObservation)
    (hnew : ∀ r, previousRevision json s id = some r → r < revision) :
  Publication json s (renewProjection json s id ended encoded encodedObservation).1
    (renewProjection json s id ended encoded encodedObservation).2
  := by
  unfold renewProjection
  cases haccepted : acceptObservation json
      { s with projections := Function.update s.projections id (some encoded) } id
      encodedObservation with
  | error error =>
      simp only [haccepted]
      apply Publication.projected hencodes hnew
  | ok accepted =>
      simp only [haccepted]
      obtain ⟨rfl, haccepts⟩ := acceptObservation_eq_ok haccepted
      apply Publication.renewed hencodes hnew haccepts
      split
      · split
        · right
          left
          rfl
        · right
          right
          rfl
      · left
        rfl

/-- What is stored while the lock is held. -/
theorem storeProjection_publication [DecidableEq β] {s : Published β} {id : PyStr} {revision : Int}
    (ended : Bool) {encoded encodedObservation : β}
    (hencodes : Encodes json id revision encoded encodedObservation) :
  Publication json s (storeProjection json s id revision ended encoded encodedObservation).1
    (storeProjection json s id revision ended encoded encodedObservation).2
  := by
  unfold storeProjection
  split
  · rename_i hnone
    apply renewProjection_publication ended hencodes
    intro r hr
    rw [hnone] at hr
    cases hr
  · rename_i previous hprevious
    split
    · apply Publication.unchanged
    · rename_i hnotLess
      split
      · split
        · apply Publication.unchanged
        · rename_i hsame
          split
          · apply Publication.unchanged
          · rename_i accepted haccepted
            obtain ⟨rfl, haccepts⟩ := acceptObservation_eq_ok haccepted
            apply Publication.confirmed hencodes (by simpa using hsame) haccepts
      · apply renewProjection_publication ended hencodes
        intro r hr
        obtain rfl := Option.some.inj (hprevious.symm.trans hr)
        omega

/-- Every publication ends in one of these ways. -/
theorem publishProjection_publication [DecidableEq β] (json : SortedJson φ β) (s : Published β)
    (document : Document φ) :
  Publication json s (publishProjection json s document.val).1
    (publishProjection json s document.val).2
  := by
  obtain ⟨document, hdistinct⟩ := document
  cases document with
  | obj projection =>
      simp only [publishProjection]
      split
      · apply Publication.unchanged
      · rename_i execution hexecution
        split
        · rename_i id revision hid hrevision
          split
          · apply Publication.unchanged
          · split
            · apply Publication.unchanged
            · rename_i encoded encodedObservation hencoded
              apply storeProjection_publication
              apply encodes_of_ok hdistinct hexecution hid hrevision hencoded
        · apply Publication.unchanged
      · apply Publication.unchanged
  | _ => apply Publication.unchanged

/-! ### What is published in every run -/

/-- What is shown of an execution is its last projection, or an earlier one, and the active
execution is shown. -/
structure Coherent (json : SortedJson φ β) (s : Published β) : Prop where
  projected : ∀ id encoded, s.projections id = some encoded → ∃ e r, json.loads encoded = .obj e ∧
    valueAt e "execution_id" = .str id ∧ valueAt e "revision" = .int r
  observed : ∀ id encoded, s.observations id = some encoded → ∃ projected,
    s.projections id = some projected ∧
    LaterExecution (valueAt (entries (json.loads encoded)) "execution") (json.loads projected) ∧
    ∃ e, valueAt (entries (json.loads encoded)) "execution" = .obj e ∧
      valueAt e "execution_id" = .str id
  active : ∀ id, s.activeExecutionId = some id → (s.observations id).isSome = true

/-- What is shown of every execution stays, or is replaced by what is not older. -/
def Continues (json : SortedJson φ β) (s s' : Published β) : Prop :=
  ∀ id previous, s.observations id = some previous → ∃ current,
    s'.observations id = some current ∧
    (current = previous ∨
      NotOlder json (entries (json.loads previous)) (entries (json.loads current)))

/-- Nothing was published at first. -/
theorem coherent_empty (json : SortedJson φ β) : Coherent json Published.empty := by
  constructor
  · nofun
  · nofun
  · nofun

/-- A new projection has a later revision than the last one. -/
theorem Coherent.later {s : Published β} (hs : Coherent json s) {id : PyStr} {revision : Int}
    {encoded encodedObservation previous : β}
    (hencodes : Encodes json id revision encoded encodedObservation)
    (hnew : ∀ r, previousRevision json s id = some r → r < revision)
    (hprevious : s.projections id = some previous) :
  LaterExecution (json.loads previous) (json.loads encoded)
  := by
  obtain ⟨e, r, he, -, hr⟩ := hs.projected id previous hprevious
  obtain ⟨e', he', -, hr'⟩ := hencodes.execution
  refine ⟨e, e', r, revision, he, he', hr, hr', ?_⟩
  left
  apply hnew
  simp [previousRevision, hprevious, he, entries, hr]

/-- The execution of an encoded projection is as late as itself. -/
theorem Encodes.later_self {id : PyStr} {revision : Int} {encoded encodedObservation : β}
    (h : Encodes json id revision encoded encodedObservation) :
  LaterExecution (json.loads encoded) (json.loads encoded)
  := by
  obtain ⟨e, he, -, hr⟩ := h.execution
  exact ⟨e, e, revision, revision, he, he, hr, hr, .inr ⟨rfl, rfl⟩⟩

/-- An observation that is accepted is not older than what was shown, when its execution is
not. -/
theorem Accepts.notOlder {s : Published β} {id : PyStr} {encodedObservation previous : β}
    (h : Accepts json s id encodedObservation) (hprevious : s.observations id = some previous)
    (hexecution : LaterExecution (valueAt (entries (json.loads previous)) "execution")
      (valueAt (entries (json.loads encodedObservation)) "execution")) :
  NotOlder json (entries (json.loads previous)) (entries (json.loads encodedObservation))
  := by
  obtain ⟨hprogress, houtcome⟩ := h previous hprevious
  exact ⟨hexecution, hprogress, houtcome⟩

/-- What an updated table has under an id. -/
theorem update_eq_some {table : PyStr → Option β} {id id' : PyStr} {encoded encoded' : β}
    (h : Function.update table id (some encoded) id' = some encoded') :
  id' = id ∧ encoded' = encoded ∨ id' ≠ id ∧ table id' = some encoded'
  := by
  by_cases heq : id' = id
  · left
    subst heq
    rw [Function.update_self] at h
    exact ⟨rfl, (Option.some.inj h).symm⟩
  · right
    rw [Function.update_of_ne heq] at h
    exact ⟨heq, h⟩

/-- A new projection is kept. -/
theorem Coherent.project {s : Published β} (hs : Coherent json s) {id : PyStr} {revision : Int}
    {encoded encodedObservation : β}
    (hencodes : Encodes json id revision encoded encodedObservation)
    (hnew : ∀ r, previousRevision json s id = some r → r < revision) :
  Coherent json { s with projections := Function.update s.projections id (some encoded) }
  := by
  constructor
  · intro id' encoded' h
    rcases update_eq_some h with ⟨rfl, rfl⟩ | ⟨-, h⟩
    · obtain ⟨e, he, hid, hr⟩ := hencodes.execution
      exact ⟨e, revision, he, hid, hr⟩
    · apply hs.projected id' encoded' h
  · intro id' encoded' h
    obtain ⟨projected, hprojected, hlater, hshown⟩ := hs.observed id' encoded' h
    by_cases heq : id' = id
    · subst heq
      use encoded, Function.update_self _ _ _
      use hlater.trans (hs.later hencodes hnew hprojected)
    · use projected, (Function.update_of_ne heq _ _).trans hprojected
  · exact hs.active

/-- The observation of the last projection is kept. -/
theorem Coherent.observe {s : Published β} (hs : Coherent json s) {id : PyStr} {revision : Int}
    {encoded encodedObservation : β}
    (hencodes : Encodes json id revision encoded encodedObservation)
    (hsame : s.projections id = some encoded) :
  Coherent json
    { s with observations := Function.update s.observations id (some encodedObservation) }
  := by
  constructor
  · exact hs.projected
  · intro id' encoded' h
    rcases update_eq_some h with ⟨rfl, rfl⟩ | ⟨-, h⟩
    · obtain ⟨e, he, hid, -⟩ := hencodes.execution
      refine ⟨encoded, hsame, ?_, e, ?_, hid⟩
      · rw [hencodes.observation]
        apply hencodes.later_self
      · rw [hencodes.observation, he]
    · apply hs.observed id' encoded' h
  · intro id' hactive
    by_cases heq : id' = id
    · subst heq
      simp
    · change (Function.update s.observations id _ id').isSome = true
      rw [Function.update_of_ne heq]
      apply hs.active id' hactive

/-- Another execution, which is shown, is the active one, or none is. -/
theorem Coherent.activate {s : Published β} (hs : Coherent json s) {active : Option PyStr}
    (hactive : ∀ id, active = some id → (s.observations id).isSome = true) :
  Coherent json { s with activeExecutionId := active }
  := ⟨hs.projected, hs.observed, hactive⟩

/-- A publication keeps what is published coherent. -/
theorem Publication.coherent {s s' : Published β}
    {result : Except ProjectionError (Option (PyValue φ))} (h : Publication json s result s')
    (hs : Coherent json s) :
  Coherent json s'
  := by
  cases h with
  | unchanged => exact hs
  | projected hencodes hnew error => apply hs.project hencodes hnew
  | confirmed hencodes hsame haccepts => apply hs.observe hencodes hsame
  | renewed hencodes hnew haccepts active hactive =>
      rename_i id revision encoded encodedObservation
      have hobserved := (hs.project hencodes hnew).observe hencodes (Function.update_self _ _ _)
      apply hobserved.activate
      intro id' hid'
      rcases hactive with rfl | rfl | rfl
      · obtain rfl := Option.some.inj hid'
        change (Function.update s.observations id _ id).isSome = true
        rw [Function.update_self]
        rfl
      · cases hid'
      · apply hobserved.active id' hid'

/-- The observation that was shown is replaced by a later one, and the others stay. -/
theorem continues_update {s : Published β} {id : PyStr} {encodedObservation : β}
    {projections : PyStr → Option β} {active : Option PyStr}
    (h : ∀ previous, s.observations id = some previous →
      NotOlder json (entries (json.loads previous)) (entries (json.loads encodedObservation))) :
  Continues json s
    { projections := projections
      observations := Function.update s.observations id (some encodedObservation)
      activeExecutionId := active }
  := by
  intro id' previous hprevious
  by_cases heq : id' = id
  · subst heq
    use encodedObservation, Function.update_self _ _ _
    right
    apply h previous hprevious
  · use previous, (Function.update_of_ne heq _ _).trans hprevious
    left
    rfl

/-- What a publication shows is not older than what was shown. -/
theorem Publication.continues {s s' : Published β}
    {result : Except ProjectionError (Option (PyValue φ))} (h : Publication json s result s')
    (hs : Coherent json s) :
  Continues json s s'
  := by
  cases h with
  | unchanged =>
      intro id previous hprevious
      use previous, hprevious
      left
      rfl
  | projected hencodes hnew error =>
      intro id previous hprevious
      use previous, hprevious
      left
      rfl
  | confirmed hencodes hsame haccepts =>
      apply continues_update
      intro previous hprevious
      obtain ⟨projected, hprojected, hlater, -⟩ := hs.observed _ previous hprevious
      obtain rfl := Option.some.inj (hsame.symm.trans hprojected)
      apply haccepts.notOlder hprevious
      rw [hencodes.observation]
      exact hlater
  | renewed hencodes hnew haccepts active hactive =>
      apply continues_update
      intro previous hprevious
      obtain ⟨projected, hprojected, hlater, -⟩ := hs.observed _ previous hprevious
      apply haccepts.notOlder hprevious
      rw [hencodes.observation]
      apply hlater.trans (hs.later hencodes hnew hprojected)

/-- What is shown continues what was shown before. -/
theorem Continues.trans {s₁ s₂ s₃ : Published β} (h : Continues json s₁ s₂)
    (h' : Continues json s₂ s₃) :
  Continues json s₁ s₃
  := by
  intro id previous hprevious
  obtain ⟨middle, hmiddle, hnotOlder⟩ := h id previous hprevious
  obtain ⟨current, hcurrent, hnotOlder'⟩ := h' id middle hmiddle
  use current, hcurrent
  rcases hnotOlder' with rfl | hnotOlder'
  · exact hnotOlder
  · right
    rcases hnotOlder with rfl | hnotOlder
    · exact hnotOlder'
    · apply hnotOlder.trans hnotOlder'

/-- A run of publications keeps what is published coherent, and what it shows is not older. -/
theorem Coherent.publishAll [DecidableEq β] {s : Published β} (hs : Coherent json s)
    (documents : List (Document φ)) :
  Coherent json (publishAll json s documents) ∧ Continues json s (publishAll json s documents)
  := by
  induction documents generalizing s with
  | nil =>
      use hs
      intro id previous hprevious
      use previous, hprevious
      left
      rfl
  | cons document documents ih =>
      have hpublication := publishProjection_publication json s document
      obtain ⟨hcoherent, hcontinues⟩ := ih (hpublication.coherent hs)
      exact ⟨hcoherent, (hpublication.continues hs).trans hcontinues⟩

/-! ### What `status` shows -/

/-- `status` shows the execution, the progress and the outcome of the observation. -/
theorem valueAt_status (s : Published β) (serviceEpoch : PyStr) (accepting : Bool)
    (executionId : Option PyStr) {field : String}
    (hfield : field ∈ ["execution", "progress", "last_outcome"]) :
  valueAt (status json s serviceEpoch accepting executionId) field =
    valueAt (observation json s executionId) field
  := by
  simp only [List.mem_cons, List.not_mem_nil, or_false] at hfield
  rcases hfield with rfl | rfl | rfl <;> simp [status, valueAt, lookup]

/-- What is not older is shown as not older. -/
theorem NotOlder.status {s s' : Published β} {executionId executionId' : Option PyStr}
    (h : NotOlder json (observation json s executionId) (observation json s' executionId'))
    (serviceEpoch : PyStr) (accepting accepting' : Bool) :
  NotOlder json (status json s serviceEpoch accepting executionId)
    (status json s' serviceEpoch accepting' executionId')
  := by
  constructor
  · rw [valueAt_status _ _ _ _ (by simp), valueAt_status _ _ _ _ (by simp)]
    exact h.execution
  · rw [valueAt_status _ _ _ _ (by simp), valueAt_status _ _ _ _ (by simp)]
    exact h.progress
  · rw [valueAt_status _ _ _ _ (by simp), valueAt_status _ _ _ _ (by simp)]
    exact h.outcome

/-- The observation of an execution that was published. -/
theorem observation_of_some {s : Published β} {id : PyStr} {encoded : β}
    (h : s.observations id = some encoded) :
  observation json s (some id) = entries (json.loads encoded)
  := by
  simp [observation, h]

/-- What a publication that raises leaves as it is. -/
theorem Publication.shown_of_error {s s' : Published β} {error : ProjectionError}
    (h : Publication json s (.error error) s') :
  s'.observations = s.observations ∧ s'.activeExecutionId = s.activeExecutionId
  := by
  cases h with
  | unchanged => exact ⟨rfl, rfl⟩
  | projected => exact ⟨rfl, rfl⟩

/-- The observation that is selected depends on nothing else. -/
theorem status_congr {s s' : Published β} (hobservations : s'.observations = s.observations)
    (hactive : s'.activeExecutionId = s.activeExecutionId) (serviceEpoch : PyStr)
    (accepting : Bool) (executionId : Option PyStr) :
  status json s' serviceEpoch accepting executionId =
    status json s serviceEpoch accepting executionId
  := by
  simp only [status, observation, hobservations, hactive]

/-- What is shown of an execution: it has its id, and later it is shown again, or replaced by what
is not older. -/
theorem Coherent.status_continues {s s' : Published β} (hs : Coherent json s)
    (hcontinues : Continues json s s') {serviceEpoch : PyStr} {accepting : Bool} {id : PyStr}
    {execution : List (PyStr × PyValue φ)}
    (h : valueAt (status json s serviceEpoch accepting (some id)) "execution" = .obj execution)
    (accepting' : Bool) :
  valueAt execution "execution_id" = .str id ∧
    ((∀ field ∈ ["execution", "progress", "last_outcome"],
        valueAt (status json s' serviceEpoch accepting' (some id)) field =
          valueAt (status json s serviceEpoch accepting (some id)) field) ∨
      NotOlder json (status json s serviceEpoch accepting (some id))
        (status json s' serviceEpoch accepting' (some id)))
  := by
  rw [valueAt_status _ _ _ _ (by simp)] at h
  cases hobserved : s.observations id with
  | none =>
      simp [observation, hobserved, valueAt, lookup] at h
  | some previous =>
      rw [observation_of_some hobserved] at h
      obtain ⟨-, -, -, e, he, hid⟩ := hs.observed id previous hobserved
      obtain rfl := PyValue.obj.inj (he.symm.trans h)
      use hid
      obtain ⟨current, hcurrent, rfl | hnotOlder⟩ := hcontinues id previous hobserved
      · left
        intro field hfield
        rw [valueAt_status _ _ _ _ hfield, valueAt_status _ _ _ _ hfield,
          observation_of_some hobserved, observation_of_some hcurrent]
      · right
        rw [← observation_of_some hobserved, ← observation_of_some hcurrent] at hnotOlder
        apply hnotOlder.status

/-- The active execution is shown. -/
theorem Coherent.active_shown {s : Published β} (hs : Coherent json s)
    (hactive : s.activeExecutionId ≠ none) (serviceEpoch : PyStr) (accepting : Bool) :
  ∃ execution, valueAt (status json s serviceEpoch accepting none) "execution" = .obj execution ∧
    ∃ id, s.activeExecutionId = some id ∧ valueAt execution "execution_id" = .str id
  := by
  obtain ⟨id, hid⟩ := Option.ne_none_iff_exists'.mp hactive
  obtain ⟨encoded, hencoded⟩ := Option.isSome_iff_exists.mp (hs.active id hid)
  obtain ⟨-, -, -, e, he, hexecution⟩ := hs.observed id encoded hencoded
  refine ⟨e, ?_, id, hid, hexecution⟩
  rw [valueAt_status _ _ _ _ (by simp), ← he, ← observation_of_some hencoded]
  simp [observation, hid]

end

/-- **What the coordinator shows never regresses.** Let any documents be published one after
another, whatever the publications raise. What `status` shows of an execution carries its id, and
is shown again after any further publications, or it is replaced by what is not older: the
execution never goes back to an earlier revision, nor to another content at the same revision, the
counters of its progress never become less, and its outcome stays. The active execution is always
shown. A publication that raises changes nothing that is shown. -/
theorem observations_never_regress [DecidableEq β] (json : SortedJson φ β)
    (first rest : List (Document φ)) (epoch : PyStr) (accepting accepting' : Bool) :
  (∀ id execution,
      valueAt (status json (publishedBy json first) epoch accepting (some id)) "execution" =
        .obj execution →
      valueAt execution "execution_id" = .str id ∧
      ((∀ field ∈ ["execution", "progress", "last_outcome"],
          valueAt (status json (publishedBy json (first ++ rest)) epoch accepting' (some id)) field =
            valueAt (status json (publishedBy json first) epoch accepting (some id)) field) ∨
        NotOlder json (status json (publishedBy json first) epoch accepting (some id))
          (status json (publishedBy json (first ++ rest)) epoch accepting' (some id)))) ∧
    ((publishedBy json first).activeExecutionId ≠ none →
      ∃ execution,
        valueAt (status json (publishedBy json first) epoch accepting none) "execution" =
          .obj execution ∧
        ∃ id, (publishedBy json first).activeExecutionId = some id ∧
          valueAt execution "execution_id" = .str id) ∧
    ∀ (document : Document φ) (error : ProjectionError),
      (publishProjection json (publishedBy json first) document.val).1 = .error error →
      ∀ executionId,
        status json (publishProjection json (publishedBy json first) document.val).2 epoch accepting
          executionId =
        status json (publishedBy json first) epoch accepting executionId
  := by
  obtain ⟨hcoherent, -⟩ := Coherent.publishAll (coherent_empty json) first
  obtain ⟨-, hcontinues⟩ := hcoherent.publishAll rest
  refine ⟨?_, ?_, ?_⟩
  · intro id execution hexecution
    rw [publishedBy, publishAll, List.foldl_append]
    apply hcoherent.status_continues hcontinues hexecution
  · intro hactive
    apply hcoherent.active_shown hactive
  · intro document error herror executionId
    have hpublication := publishProjection_publication json (publishedBy json first) document
    rw [herror] at hpublication
    obtain ⟨hobservations, hactive⟩ := hpublication.shown_of_error
    apply status_congr hobservations hactive

/-! ### Two publications -/

/-- An encoding is its document with the keys in order. -/
def sampleJson : SortedJson Empty (PyValue Empty) where
  dumps v := some v.canonical
  loads v := v
  worth := nofun
  loads_dumps := by
    rintro v b - h
    exact (Option.some.inj h).symm

/-- The execution of the samples, at a revision. -/
def sampleExecution (revision : Int) : PyValue Empty :=
  record
    [ ("execution_id", .str (PyStr.ofString "a")), ("revision", .int revision),
      ("phase", .str (PyStr.ofString "STREAMING")) ]

/-- The projection of the execution. -/
def sampleProjection (revision : Int) : Document Empty :=
  ⟨record [("execution", sampleExecution revision)], by
    simp [sampleExecution, record, distinct, distinctEntries]⟩

/-- The observation of the execution. -/
def sampleObservation (revision : Int) : PyValue Empty :=
  record
    [ ("schema_version", .int 1), ("execution", sampleExecution revision), ("progress", .null),
      ("last_outcome", .null) ]

/-- The first projection is observed. -/
theorem sample_observed [DecidableEq (PyValue Empty)] :
  (publishedBy sampleJson [sampleProjection 1]).observations (PyStr.ofString "a") =
    some (sampleObservation 1).canonical
  := by
  have hid : PyStr.ofString "a" ≠ [] := by decide
  simp [publishedBy, publishAll, publishProjection, sampleProjection, sampleExecution,
    sampleObservation, record, valueAt, lookup, encodeProjection, sampleJson, objectOrNull,
    storeProjection, previousRevision, renewProjection, acceptObservation, Published.empty, hid]

/-- What is shown of the execution carries its id. -/
theorem observations_never_regress_sample :
  ∃ execution,
    valueAt (status sampleJson (@publishedBy _ _ sampleJson (Classical.decEq _)
      [sampleProjection 1]) [] true (some (PyStr.ofString "a"))) "execution" = .obj execution ∧
    valueAt execution "execution_id" = .str (PyStr.ofString "a")
  := by
  classical
  obtain ⟨hshown, -⟩ := @observations_never_regress _ _ (Classical.decEq _) sampleJson
    [sampleProjection 1] [sampleProjection 2] [] true true
  have hexecution : valueAt (status sampleJson (@publishedBy _ _ sampleJson (Classical.decEq _)
      [sampleProjection 1]) [] true (some (PyStr.ofString "a"))) "execution" =
      (sampleExecution 1).canonical := by
    rw [valueAt_status _ _ _ _ (by simp), observation_of_some sample_observed]
    change valueAt (entries (sampleObservation 1).canonical) "execution" = _
    rw [sampleObservation, record, canonical, entries, valueAt_canonical (by simp)]
    simp [valueAt, lookup]
  refine ⟨_, hexecution, ?_⟩
  apply (hshown _ _ hexecution).1

end MachineCoordinator

end DrawingMachine
