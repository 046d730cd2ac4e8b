import DrawingMachine.Artifacts.Promotion

/-!
# What the store never does to what it has promoted

All programs of the store keep an invariant of the tree that does not depend on the staging area
and the projections, nor on hidden directories that are not there yet, and that survives new empty
directories, the publication of a complete attempt under a name that is free, and the revocations
that are allowed. This is shown for every write, so that it holds wherever the process ends and
whatever the operating system refuses.
-/

namespace DrawingMachine

namespace ArtifactStore

open Durable

variable {host : Host} {Revocable : String → String → Prop} {I : Tree → Prop}

/-! ### Invariants of the store -/

/-- An invariant does not depend on what is at a path or below it. -/
def Free (I : Tree → Prop) (p : Path) : Prop :=
  ∀ t t', FileTree.AgreesOutside p t t' → I t → I t'

/-- A name that the store gives to the directories it hides. -/
def IsHidden (name : String) : Prop :=
  (∃ attemptId token, name = hiddenName ("promoting-" ++ attemptId) token) ∨
    ∃ token, name = hiddenName "revoke" token

/-- A tree has the files that a worker declares in a manifest that passed its checks. -/
def Complete (host : Host) (jobId attemptId : String) (tree : Tree) : Prop :=
  ∃ (manifest : Manifest) (refs : List ArtifactRef), manifest.Valid ∧
    Promoted host manifest jobId attemptId refs tree

/-- What is asked of an invariant that the programs of the store keep, when they revoke none but
some of the attempts. -/
structure Kept (host : Host) (Revocable : String → String → Prop) (I : Tree → Prop) : Prop where
  staging : Free I [".staging"]
  projection : ∀ jobId name, name ≠ "artifacts" → Free I [jobId, name]
  directory : ∀ (parent : Path) (name : String) (t : Tree) (entries : List (String × Tree)),
    parent.length ≤ 1 → t.lookup parent = some (.directory entries) →
      t.lookup (parent ++ [name]) = none → I t → I (t.put name (some (.directory [])) parent)
  hidden : ∀ (jobId name : String) (t : Tree), IsHidden name →
    t.lookup (artifactsOf jobId ++ [name]) = none → I t → Free I (artifactsOf jobId ++ [name])
  publish : ∀ (jobId attemptId : String) (t tree : Tree),
    t.lookup (artifactsOf jobId ++ [attemptId]) = none → Complete host jobId attemptId tree →
      I t → I (t.put attemptId (some tree) (artifactsOf jobId))
  revoke : ∀ (jobId attemptId : String) (t : Tree), Revocable jobId attemptId →
    I t → I (t.put attemptId none (artifactsOf jobId))

/-- A directory near the root is made, if it is not there. -/
theorem keeps_ensureDirectoryAt (hI : Kept host Revocable I) {parent : Path} (name : String)
    (hparent : parent.length ≤ 1) :
  KeepsTree (ensureDirectoryAt parent name) I
  := by
  apply Keeps.bind
  · apply Keeps.handle
    · apply keeps_mkdir
      intro t entries
      apply hI.directory parent name t entries hparent
    · intro e
      split
      · apply Keeps.pure
      · apply Keeps.raise
  · intro _
    apply keeps_openDirectoryAt

/-! ### The staging area -/

/-- What is confined to the staging area keeps an invariant of the store. -/
theorem Confined.keeps_staging {α : Type} {x : Program α} (hI : Kept host Revocable I)
    (h : Confined (AtOrBelow [".staging"]) x) :
  KeepsTree x I
  := h.keeps hI.staging

section

variable {jobId attemptId : String}

/-- The attempts of a job are in the staging area. -/
theorem staging_prefix {path : Path} : [".staging"] <+: stagingOf jobId ++ path :=
  List.prefix_append [".staging"] (jobId :: path)

/-- An attempt is removed from the staging area. -/
theorem confined_removeStaging :
  Confined (AtOrBelow [".staging"]) (removeTreeAt (stagingOf jobId) attemptId)
  := by
  apply confined_removeTreeAt.mono
  intro parent name h
  exact staging_prefix.trans h

/-- A directory is made for a worker in the staging area. -/
theorem confined_createStaging :
  Confined (AtOrBelow [".staging"]) (createStaging host jobId attemptId)
  := by
  apply (Confined.inspect _).bind
  intro _
  apply confined_translating
  apply (confined_ensureDirectoryAt List.prefix_rfl).bind
  intro _
  apply (confined_ensureDirectoryAt (List.prefix_append _ _)).bind
  intro _
  apply (confined_createDirectoryAt staging_prefix).handle
  intro e
  split
  · apply Confined.raise
  · apply Confined.raise

/-- An attempt is discarded from the staging area. -/
theorem confined_discardStaging :
  Confined (AtOrBelow [".staging"]) (discardStaging host jobId attemptId)
  := by
  apply (Confined.inspect _).bind
  intro _
  apply confined_translating
  apply Confined.bind
  · apply confined_found
    apply confined_openDirectoryAt.bind
    intro _
    apply confined_openDirectoryAt
  · intro opened
    cases opened with
    | false => apply Confined.pure
    | true => apply confined_removeStaging

/-- An attempt is discarded from the staging area, whatever is raised. -/
theorem confined_cleanupStaging :
  Confined (AtOrBelow [".staging"]) (cleanupStaging host jobId attemptId)
  := by
  apply confined_discardStaging.handle
  intro e
  split
  · apply Confined.pure
  · apply Confined.pure
  · apply Confined.raise

/-- Directories are made in the staging area. -/
theorem confined_ensureDirectories {names : List String} {parent : Path}
    (h : [".staging"] <+: parent) :
  Confined (AtOrBelow [".staging"]) (ensureDirectories parent names)
  := by
  induction names generalizing parent with
  | nil => apply Confined.pure
  | cons name names ih =>
      have hname : [".staging"] <+: parent ++ [name] := h.trans (List.prefix_append _ _)
      apply (confined_ensureDirectoryAt hname).bind
      intro _
      apply ih hname

/-- A file is staged in the staging area. -/
theorem confined_stageExternalFile {source : Contents} {relative : Path} {maxBytes : Nat} :
  Confined (AtOrBelow [".staging"]) (stageExternalFile jobId attemptId source relative maxBytes)
  := by
  have hpath : AtOrBelow [".staging"] (stagingOf jobId ++ attemptId :: relative.dropLast)
      (relative.getLastD "") := by
    rw [AtOrBelow, List.append_assoc]
    apply staging_prefix
  apply (Confined.inspect _).bind
  intro _
  apply (confined_ensureDirectoryAt List.prefix_rfl).bind
  intro _
  apply (confined_ensureDirectoryAt (List.prefix_append _ _)).bind
  intro _
  apply (confined_createDirectoryAt staging_prefix).bind
  intro _
  apply Confined.handle
  · apply (confined_ensureDirectories staging_prefix).bind
    intro _
    apply (confined_createRegularAt hpath).bind
    intro _
    apply (confined_writeAll hpath source).bind
    intro _
    apply Confined.inspect
  · intro e
    apply confined_removeStaging.bind
    intro _
    apply Confined.raise

end

/-! ### Promotion -/

section

variable {manifest : Manifest} {jobId attemptId : String}

/-- A hidden directory is made where there was nothing, so that an invariant does not depend on
it. -/
theorem ensures_createHidden (hI : Kept host Revocable I) {name : String} (hname : IsHidden name)
    {d : Disk} (hd : I d.jobs.val) :
  Ensures (createDirectoryAt (artifactsOf jobId) name) d
    (fun r d' => I d'.jobs.val ∧ (r = .ok () → Free I (artifactsOf jobId ++ [name])))
    (fun d' => I d'.jobs.val)
  := by
  apply Ensures.bind_either (Q := fun r d' => I d'.jobs.val ∧
    (r = .ok () → Free I (artifactsOf jobId ++ [name])))
  · apply Ensures.inspect_either
    · intro e _
      exact ⟨hd, by rintro ⟨⟩⟩
    · intro _ habsent
      have hfree := hI.hidden jobId name d.jobs.val hname (checkAbsent_eq_ok_iff.mp habsent).2 hd
      apply ensures_change hd
      · intro d' hd'
        rw [hd']
        exact ⟨hd, fun _ => hfree⟩
      · intro d' hd'
        rw [hd']
        exact ⟨hfree _ _ (FileTree.agreesOutside_put _ _ _ _) hd, fun _ => hfree⟩
  · intro e d' h
    exact ⟨h.1, by rintro ⟨⟩⟩
  · intro _ d' h
    apply (keeps_openDirectoryAt (I := fun d => I d.jobs.val) d' h.1).mono
    · intro r d'' hd''
      exact ⟨hd'', fun _ => h.2 rfl⟩
    · intro d'' hd''
      exact hd''

/-- The directory that is prepared is one on which an invariant does not depend. -/
theorem ensures_createPrepared (hI : Kept host Revocable I) (tokens : List String) {d : Disk}
    (hd : I d.jobs.val) :
  Ensures (createPrepared jobId attemptId tokens) d
    (fun r d' => I d'.jobs.val ∧ ∀ name, r = .ok name → Free I (artifactsOf jobId ++ [name]))
    (fun d' => I d'.jobs.val)
  := by
  induction tokens generalizing d with
  | nil =>
      apply Ensures.raise
      exact ⟨hd, by rintro _ ⟨⟩⟩
  | cons token tokens ih =>
      apply Ensures.handle_either (Q := fun r d' => I d'.jobs.val ∧
        ∀ name, r = .ok name → Free I (artifactsOf jobId ++ [name]))
      · apply (ensures_createHidden hI (.inl ⟨attemptId, token, rfl⟩) hd).bind_either
        · intro e d' h
          exact ⟨h.1, by rintro _ ⟨⟩⟩
        · intro _ d' h
          apply Ensures.pure
          refine ⟨h.1, ?_⟩
          rintro _ ⟨⟩
          exact h.2 rfl
      · intro name d' h
        exact h
      · intro e d' h
        split
        · exact ih h.1
        · apply Ensures.raise
          exact ⟨h.1, by rintro _ ⟨⟩⟩

/-- Preparing writes to the hidden directory and the staging area. -/
theorem keeps_prepare (hI : Kept host Revocable I) {prepared : String}
    (hfree : Free I (artifactsOf jobId ++ [prepared])) :
  KeepsTree (prepare host manifest jobId attemptId prepared) I
  := by
  apply Keeps.handle
  · apply Keeps.bind
    · apply Confined.keeps _ hfree
      apply (confined_copyDeclaredTree host manifest jobId _ _).mono
      intro parent name
      apply AtOrBelow.of_below
    · intro _
      apply (Keeps.inspect _).bind
      intro entries
      apply Keeps.inspect
  · intro e
    apply (confined_removeTreeAt.keeps hfree).bind
    intro _
    apply (confined_removeStaging.keeps_staging hI).bind
    intro _
    apply Keeps.raise

/-- An entry is renamed to a name that is free. -/
theorem ensures_renameNoreplace {parent : Path} {source destination : String} {d : Disk}
    (hd : I d.jobs.val)
    (h : ∀ tree entries, d.lookup (parent ++ [source]) = some tree →
      d.lookup parent = some (.directory entries) → d.lookup (parent ++ [destination]) = none →
        I ((d.jobs.val.put source none parent).put destination (some tree) parent)) :
  Ensures (renameNoreplace parent source destination) d
    (fun r d' => I d'.jobs.val ∧
      (r = .ok () → d.lookup (parent ++ [destination]) = none))
    (fun d' => I d'.jobs.val)
  := by
  apply Ensures.inspect_either
  · rintro e ⟨⟩
  · rintro _ ⟨⟩
    cases hsource : d.lookup (parent ++ [source]) with
    | none =>
        apply Ensures.raise
        exact ⟨hd, by rintro ⟨⟩⟩
    | some tree =>
        apply Ensures.inspect_either
        · intro e _
          exact ⟨hd, by rintro ⟨⟩⟩
        · intro _ habsent
          obtain ⟨⟨entries, hparent⟩, hnone⟩ := checkAbsent_eq_ok_iff.mp habsent
          apply ensures_change hd
          · intro d' hd'
            rw [hd']
            exact ⟨hd, by rintro ⟨⟩⟩
          · intro d' hd'
            rw [hd', moved_val hsource]
            exact ⟨h tree entries hsource hparent hnone, fun _ => hnone⟩

/-- A complete directory is published under a name that is free. -/
theorem ensures_publish (hI : Kept host Revocable I) {prepared : String}
    (hfree : Free I (artifactsOf jobId ++ [prepared])) {d : Disk} (hd : I d.jobs.val) {tree : Tree}
    (htree : d.lookup (artifactsOf jobId ++ [prepared]) = some tree)
    (hcomplete : Complete host jobId attemptId tree) :
  Ensures (publish host jobId attemptId prepared) d (fun _ d' => I d'.jobs.val)
    (fun d' => I d'.jobs.val)
  := by
  apply Ensures.handle_either (Q := fun _ d' => I d'.jobs.val)
  · apply (ensures_renameNoreplace hd _).mono
    · intro r d' h
      exact h.1
    · intro d' hd'
      exact hd'
    · intro tree' entries hsource hparent hnone
      obtain rfl := Option.some.inj (htree.symm.trans hsource)
      have hmoved := hfree _ _ (FileTree.agreesOutside_put d.jobs.val _ prepared none) hd
      apply hI.publish jobId attemptId _ tree _ hcomplete hmoved
      have hname : attemptId ≠ prepared := by
        rintro rfl
        rw [hnone] at hsource
        cases hsource
      rw [← hnone]
      apply FileTree.lookup_put_of_diverge
      · simpa using hname.symm
      · intro hprefix
        simpa using hprefix.length_le
  · intro _ d' hd'
    exact hd'
  · intro e d' hd'
    split
    · apply ((confined_removeTreeAt.keeps hfree).bind fun _ => Keeps.raise _) d' hd'
    · apply Keeps.raise _ d' hd'

/-- What was published is only read. -/
theorem keeps_confirmPublished {prepublished : List ArtifactRef} :
  KeepsTree (confirmPublished host manifest jobId attemptId prepublished) I
  := by
  apply Keeps.bind
  · apply Keeps.handle
    · apply (Keeps.inspect _).bind
      intro _
      apply Keeps.inspect
    · intro e
      apply Keeps.raise
  · intro final
    apply (Keeps.inspect _).bind
    intro _
    apply Keeps.pure

/-- A manifest of an attempt is prepared and published. -/
theorem keeps_prepareAndPublish (hI : Kept host Revocable I) (hvalid : manifest.Valid)
    {tokens : List String} :
  KeepsTree (prepareAndPublish host manifest jobId attemptId tokens) I
  := by
  apply keeps_openDirectoryAt.bind
  intro _
  apply keeps_openDirectoryAt.bind
  intro _
  apply keeps_openDirectoryAt.bind
  intro _
  apply Keeps.bind
  · exact keeps_ensureDirectoryAt hI jobId (Nat.zero_le 1)
  intro _
  apply Keeps.bind
  · exact keeps_ensureDirectoryAt hI "artifacts" (le_refl 1)
  intro _
  apply (Keeps.inspect _).bind
  intro entry
  cases entry with
  | some tree => apply Keeps.raise
  | none =>
      intro d hd
      apply (ensures_createPrepared hI (tokens.take 8) hd).returns.bind_either
      · intro e d₁ h
        exact h.1.1
      · rintro prepared d₁ ⟨⟨hd₁, hfree⟩, hcreate⟩
        apply (keeps_prepare hI (hfree prepared rfl) d₁ hd₁).returns.bind_either
        · intro e d₂ h
          exact h.1
        · rintro refs d₂ ⟨hd₂, hprepare⟩
          obtain ⟨left, tree, -, htree, -, hpromoted⟩ := returns_prepare hvalid
            (returns_createPrepared (hcreate prepared rfl)) (hprepare refs rfl)
          apply (ensures_publish hI (hfree prepared rfl) hd₂ htree
            ⟨manifest, refs, hvalid, hpromoted⟩).bind_either
          · intro e d₃ hd₃
            exact hd₃
          · intro _ d₃ hd₃
            apply (keeps_confirmPublished.bind fun _ => _) d₃ hd₃
            intro final
            apply (confined_removeStaging.keeps_staging hI).bind
            intro _
            apply Keeps.pure

/-- A promotion keeps what the store keeps. -/
theorem keeps_validateAndPromote (hI : Kept host Revocable I) {artifacts : List WorkerArtifact}
    {expected : List ExpectedArtifact} {tokens : List String} :
  KeepsTree (validateAndPromote host jobId attemptId artifacts expected tokens) I
  := by
  apply (Keeps.inspect _).bind
  intro _
  split
  · apply (confined_cleanupStaging.keeps_staging hI).bind
    intro _
    apply Keeps.raise
  · rename_i manifest _
    apply (keeps_prepareAndPublish hI (Manifest.valid manifest)).handle
    intro e
    apply Keeps.raise

/-- An import keeps what the store keeps. -/
theorem keeps_importFile (hI : Kept host Revocable I) {source : Except Failure Contents}
    {role relativePath mediaType : String} {maxBytes : Nat} {tokens : List String} :
  KeepsTree (importFile host jobId attemptId source role relativePath mediaType maxBytes tokens) I
  := by
  apply (Keeps.inspect _).bind
  intro _
  apply (Keeps.inspect _).bind
  intro _
  apply (Keeps.inspect _).bind
  intro _
  apply (Keeps.inspect _).bind
  intro _
  apply (Keeps.inspect _).bind
  intro _
  apply Keeps.bind
  · apply (Keeps.inspect _).handle
    intro e
    apply Keeps.raise
  intro contents
  apply (Keeps.inspect _).bind
  intro _
  apply Keeps.bind
  · apply (confined_stageExternalFile.keeps_staging hI).handle
    intro e
    split
    · apply Keeps.raise
    · apply Keeps.raise
  intro copied
  apply keeps_validateAndPromote hI

end

/-! ### Revocation -/

section

variable {jobId attemptId : String}

/-- An attempt that may be revoked is hidden, and then removed. -/
theorem keeps_revoke (hI : Kept host Revocable I) (hrevocable : Revocable jobId attemptId)
    {manifest : Manifest} {exact : List ArtifactRef} {token : String} :
  KeepsTree (revoke host manifest jobId attemptId exact token) I
  := by
  have hhidden : IsHidden (hiddenName "revoke" token) := .inr ⟨token, rfl⟩
  apply Keeps.bind
  · apply (Keeps.inspect _).bind
    intro _
    apply Keeps.inspect
  intro current
  apply (Keeps.inspect _).bind
  intro _ d hd
  apply (ensures_renameNoreplace hd _).bind_either
  · intro e d' h
    exact h.1
  · intro _ d' h
    have hfree := hI.hidden jobId _ d.jobs.val hhidden (h.2 rfl) hd
    exact confined_removeTreeAt.keeps hfree d' h.1
  · intro tree entries _ _ hnone
    have hfree := hI.hidden jobId _ d.jobs.val hhidden hnone hd
    apply hfree _ _ (FileTree.agreesOutside_put _ _ _ _)
    apply hI.revoke jobId attemptId _ hrevocable hd

/-- Discarding an attempt that may be revoked keeps what the store keeps. -/
theorem keeps_discardPromotedBundle (hI : Kept host Revocable I)
    (hrevocable : Revocable jobId attemptId) {exact : List ArtifactRef} {token : String} :
  KeepsTree (discardPromotedBundle host jobId attemptId exact token) I
  := by
  apply (Keeps.inspect _).bind
  intro _
  apply (Keeps.inspect _).bind
  intro manifest
  apply Keeps.handle
  · apply Keeps.bind
    · apply Keeps.handle
      · apply Keeps.bind
        · apply keeps_openDirectoryAt.bind
          intro _
          apply keeps_openDirectoryAt
        · intro _
          apply Keeps.pure
      · intro e
        split
        · apply Keeps.pure
        · apply Keeps.raise
    · intro opened
      apply (Keeps.inspect _).bind
      intro present
      split
      · apply Keeps.pure
      · apply keeps_openDirectoryAt.bind
        intro _
        apply keeps_revoke hI hrevocable
  · intro e
    apply Keeps.raise

end

/-! ### Projections -/

section

variable {jobId : String}

/-- The entry is one of the directory of a job, other than that of its artifacts. -/
def BesideArtifacts (jobId : String) (parent : Path) (name : String) : Prop :=
  parent = [jobId] ∧ name ≠ "artifacts"

/-- A temporary file of a projection is not the directory of the artifacts. -/
theorem IsProjectionTemp.ne {name : String} (h : IsProjectionTemp name) : name ≠ "artifacts" := by
  rintro rfl
  obtain ⟨-, hlength, -⟩ := h
  revert hlength
  decide

/-- A hidden name is not that of the directory of the artifacts. -/
theorem hiddenName_ne {kind token : String} : hiddenName kind token ≠ "artifacts" := by
  intro h
  have hlist : ("." ++ kind ++ "-" ++ token).toList = "artifacts".toList := congrArg _ h
  simp at hlist

/-- What is written beside the artifacts keeps what the store keeps. -/
theorem Confined.keeps_beside {α : Type} {x : Program α} (hI : Kept host Revocable I)
    (h : Confined (BesideArtifacts jobId) x) :
  KeepsTree x I
  := by
  apply h
  rintro parent name new t ⟨rfl, hname⟩
  apply hI.projection jobId name hname
  exact FileTree.agreesOutside_put t [jobId] name new

/-- Temporary files are removed beside the artifacts. -/
theorem confined_removeTemps {entries : List (String × Tree)} :
  Confined (BesideArtifacts jobId) (removeTemps [jobId] entries)
  := by
  induction entries with
  | nil => apply Confined.pure
  | cons entry entries ih =>
      obtain ⟨name, tree⟩ := entry
      apply Confined.bind
      · unfold removeTemp
        split
        · rename_i htemp
          split
          · apply confined_unlink ⟨rfl, htemp.ne⟩
          · apply confined_unlink ⟨rfl, htemp.ne⟩
          · apply Confined.raise
        · apply Confined.pure
      · intro _
        exact ih

/-- A projection keeps what the store keeps. -/
theorem keeps_writeProjection (hI : Kept host Revocable I) {artifacts : List ArtifactRef}
    {document : Contents} {token : String} :
  KeepsTree (writeProjection host jobId artifacts document token) I
  := by
  have htemporary : BesideArtifacts jobId [jobId] (hiddenName "job.json.tmp" token) :=
    ⟨rfl, hiddenName_ne⟩
  apply (Keeps.inspect _).bind
  intro _
  apply (Keeps.inspect _).bind
  intro _
  apply Keeps.handle
  · apply Keeps.bind
    · exact keeps_ensureDirectoryAt hI jobId (Nat.zero_le 1)
    intro _
    apply (Keeps.inspect _).bind
    intro entries
    apply (confined_removeTemps.keeps_beside hI).bind
    intro _
    apply ((confined_createRegularAt htemporary).keeps_beside hI).bind
    intro _
    apply Confined.keeps_beside hI
    apply Confined.handle
    · apply (confined_writeAll htemporary document).bind
      intro _
      apply (confined_replaceFile htemporary ⟨rfl, by decide⟩).bind
      intro _
      apply (Confined.inspect _).bind
      intro written
      apply Confined.inspect
    · intro e
      apply Confined.bind
      · apply (Confined.inspect _).bind
        intro entry
        split
        · apply confined_unlink htemporary
        · apply Confined.pure
      · intro _
        apply Confined.raise
  · intro e
    apply Keeps.raise

end

end ArtifactStore

end DrawingMachine
