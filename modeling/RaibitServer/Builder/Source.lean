import RaibitServer.Lib.Git
import RaibitServer.Builder.Inputs

/-!
# Builder.Source — the Git part of `prepareSource`

The worker clones the branch of a deployment to depth one.  A deployment that stores a commit has it
checked out; for one that does not, the commit found at the tip is stored.  The checks before the
clone, credentials, logs and dry runs are left out.
-/

namespace RaibitServer.Builder

open Lib Text Git

/-- A full object id, as git prints it. -/
structure Commit where
  text : String
  full : normalizeGitCommitSHA text = .ok text

inductive SourceError
  | clone (branch : String)
  | checkout (commit : String)
  | store (error : StoreError)
  deriving DecidableEq

/-- The output of `git rev-parse HEAD`. -/
def revParse (tree : WorkTree Commit) : String := tree.head.text ++ "\n"

def sourceBranch (deployment : DeploymentRecord) (service : ServiceRecord) : String :=
  firstNonEmpty [deployment.branch, service.branch, "main"]

def DeploymentRecord.storedCommit (deployment : DeploymentRecord) : String :=
  firstNonEmpty [deployment.commitSHA, deployment.commitHash]

/-- The revision found in the tree, stored under the lease. -/
def pinRevision (db : Database) (now : Micros) (deployment : DeploymentRecord) (lease : WorkflowLease)
    (tree : WorkTree Commit) : Except SourceError Database := do
  let resolvedCommit ← (normalizeGitCommitSHA (trimSpace (revParse tree))).mapError .store
  (updateDeploymentForLease db lease deployment.id (.commit resolvedCommit) now).mapError .store

/-- In the clone: the stored commit is checked out, or the one that is there is stored. -/
def settleCommit (db : Database) (now : Micros) (deployment : DeploymentRecord) (lease : WorkflowLease)
    (tree : WorkTree Commit) : Except SourceError (WorkTree Commit × Database) :=
  if deployment.storedCommit ≠ "" then
    (orThrow (tree.checkout fun c => c.text = deployment.storedCommit)
      (.checkout deployment.storedCommit)).map (·, db)
  else (pinRevision db now deployment lease tree).map (tree, ·)

def prepareGitSource (remote : Remote Commit) (db : Database) (now : Micros) (deployment : DeploymentRecord)
    (service : ServiceRecord) (lease : WorkflowLease) : Except SourceError (WorkTree Commit × Database) := do
  let tree ← orThrow (shallowClone remote (sourceBranch deployment service))
    (.clone (sourceBranch deployment service))
  settleCommit db now deployment lease tree

/-! ### Full commits -/

theorem Commit.hex (c : Commit) : ∀ x ∈ c.text.toList, lowerHex x = true := by
  rcases (normalizeGitCommitSHA_ok.1 c.full).1 with h | h
  · exact bounded_chars h
  · exact bounded_chars h

theorem Commit.text_ne_empty (c : Commit) : c.text ≠ "" := by
  rcases (normalizeGitCommitSHA_ok.1 c.full).1 with h | h
  · exact bounded_ne_empty (by omega) h
  · exact bounded_ne_empty (by omega) h

theorem Commit.trimSpace_text (c : Commit) : trimSpace c.text = c.text :=
  trimBy_eq_self fun x hx => isGoSpace_of_lowerHex (c.hex x hx)

theorem Commit.trimSpace_revParse (tree : WorkTree Commit) : trimSpace (revParse tree) = tree.head.text := by
  refine trimBy_append (fun x hx => isGoSpace_of_lowerHex (tree.head.hex x hx)) ?_ tree.head.text_ne_empty
  intro x hx
  obtain rfl : x = '\n' := by simpa using hx
  decide

theorem normalizeGitCommitSHA_empty : normalizeGitCommitSHA "" ≠ .ok commit := by
  intro h
  obtain ⟨hfull, rfl⟩ := normalizeGitCommitSHA_ok.1 h
  rcases hfull with hfull | hfull
  · exact bounded_ne_empty (by omega) hfull rfl
  · exact bounded_ne_empty (by omega) hfull rfl

/-! ### The commit that reaches the worker -/

section Inputs

variable {sprint : Json → String} {d d' : DeploymentRecord} {live service : ServiceRecord}
  {payload payload' : JsonObject}

/-- A full commit is read from the snapshot as it was stored. -/
theorem buildInputs_storedCommit (h : d.buildInputs sprint live payload = .ok (d', service, payload'))
    {c : Commit} (hc : d.storedCommit = c.text) : d'.storedCommit = c.text := by
  rcases buildInputs_deployment h with rfl | ⟨commit, hcommit, rfl⟩
  · exact hc
  · change coalesceString [d.commitSHA, d.commitHash] = c.text at hc
    rw [hc, c.full] at hcommit
    obtain rfl := Except.ok.inj hcommit
    change coalesceString [c.text, c.text] = c.text
    rw [coalesceString_cons, c.trimSpace_text, if_neg c.text_ne_empty]

theorem buildInputs_unpinned (h : d.buildInputs sprint live payload = .ok (d', service, payload'))
    (hnone : d.storedCommit = "") : d' = d := by
  rcases buildInputs_deployment h with rfl | ⟨commit, hcommit, rfl⟩
  · rfl
  · change coalesceString [d.commitSHA, d.commitHash] = "" at hnone
    rw [hnone] at hcommit
    exact absurd hcommit normalizeGitCommitSHA_empty

end Inputs

/-! ### Checking out and pinning -/

section Prepare

variable {remote : Remote Commit} {db db' : Database} {now : Micros} {d : DeploymentRecord} {service : ServiceRecord}
  {lease : WorkflowLease} {history : History Commit} {tree : WorkTree Commit}

theorem prepareGitSource_clone (hbranch : remote (sourceBranch d service) = some history) :
    prepareGitSource remote db now d service lease =
      settleCommit db now d lease ⟨[history.tip], history.tip⟩ := by
  unfold prepareGitSource
  rw [shallowClone_some hbranch]
  exact pure_bind (m := Except SourceError) _ _

/-- With a stored commit the outcome is the checkout of it in the clone of the tip. -/
theorem prepareGitSource_stored (hbranch : remote (sourceBranch d service) = some history)
    (hstored : d.storedCommit ≠ "") : prepareGitSource remote db now d service lease =
      if history.tip.text = d.storedCommit then .ok (⟨[history.tip], history.tip⟩, db)
      else .error (.checkout d.storedCommit) := by
  rw [prepareGitSource_clone hbranch, settleCommit, if_pos hstored, checkout_shallow]
  by_cases htip : history.tip.text = d.storedCommit
  · rw [if_pos (decide_eq_true htip), if_pos htip]
    rfl
  · rw [if_neg (by simpa using htip), if_neg htip]
    rfl

/-- Without one it is the tip, if its commit can be stored. -/
theorem prepareGitSource_unpinned (hbranch : remote (sourceBranch d service) = some history)
    (hnone : d.storedCommit = "") : prepareGitSource remote db now d service lease =
      (pinRevision db now d lease ⟨[history.tip], history.tip⟩).map (⟨[history.tip], history.tip⟩, ·) := by
  rw [prepareGitSource_clone hbranch, settleCommit, if_neg (not_not.2 hnone)]

theorem pinRevision_eq : pinRevision db now d lease tree =
    (updateDeploymentForLease db lease d.id (.commit tree.head.text) now).mapError .store := by
  unfold pinRevision
  rw [Commit.trimSpace_revParse, tree.head.full]
  rfl

/-- A commit that is stored under a lease is stored in both columns. -/
theorem updateDeploymentForLease_commit {c : Commit}
    (h : updateDeploymentForLease db lease d.id (.commit c.text) now = .ok db') :
    ∀ row ∈ db'.deployments, row.id = d.id → row.commitSha = some c.text ∧ row.commitHash = some c.text := by
  obtain ⟨-, u, hu, rfl⟩ := updateDeploymentForLease_ok h
  obtain ⟨commit, hcommit, rfl⟩ := fencedUpdate_commit hu
  obtain rfl : c.text = commit := Except.ok.inj (c.full.symm.trans hcommit)
  intro row hrow hid
  obtain ⟨old, -, hwritten⟩ := Sql.mem_update.1 hrow
  by_cases hold : old.id = d.id
  · rw [if_pos (decide_eq_true hold)] at hwritten
    rw [hwritten]
    exact ⟨rfl, rfl⟩
  · rw [if_neg (by simpa using hold)] at hwritten
    exact absurd (hwritten ▸ hid) hold

/-- The lease is held, and the deployment is being built and stores no commit. -/
def Pinnable (db : Database) (lease : WorkflowLease) (deploymentID : String) : Prop :=
  (∃ job, db.jobs.find? (fun j => j.id = lease.jobID) = some job ∧ job.heldBy lease = true) ∧
    ∃ row, db.deployments.find? (fun r => r.id = deploymentID) = some row ∧
      equalFold (trimSpace row.status) "BUILDING" = true ∧ trimSpace (row.commitSha.getD "") = "" ∧
      trimSpace (row.commitHash.getD "") = ""

theorem updateDeploymentForLease_pinnable {c : Commit} (h : Pinnable db lease d.id) :
    ∃ db', updateDeploymentForLease db lease d.id (.commit c.text) now = .ok db' := by
  obtain ⟨⟨job, hjob, hheld⟩, row, hrow, hstatus, hsha, hhash⟩ := h
  refine ⟨db.updateDeployments (fun r => r.id = d.id) ((DeploymentUpdate.commit c.text).apply now), ?_⟩
  unfold updateDeploymentForLease
  refine bind_ok.2 ⟨(), ?_, bind_ok.2 ⟨.commit c.text, ?_, bind_ok.2 ⟨(), ?_, rfl⟩⟩⟩
  · exact bind_ok.2 ⟨job, orThrow_ok.2 hjob, throwIf_ok.2 (not_not.2 hheld)⟩
  · refine bind_ok.2 ⟨c.text, c.full, bind_ok.2 ⟨row, orThrow_ok.2 hrow, bind_ok.2 ⟨(), ?_, rfl⟩⟩⟩
    refine bind_ok.2 ⟨(), throwIf_ok.2 (not_not.2 hstatus), throwIf_ok.2 ?_⟩
    simp only [hsha, hhash, if_true, ne_eq, not_true_eq_false, false_and, not_false_eq_true]
  · have hid := List.find?_some hrow
    exact throwIf_ok.2 (not_not.2 (List.any_eq_true.2 ⟨row, List.mem_of_find?_eq_some hrow, hid⟩))

end Prepare

/-- **A stored commit is built exactly while it is the tip of its branch**, and a deployment without one
stores the commit that is checked out. -/
theorem stored_commit_built_iff_tip (sprint : Json → String) (remote : Remote Commit) (db : Database) (now : Micros)
    (d d' : DeploymentRecord) (live service : ServiceRecord) (payload payload' : JsonObject) (lease : WorkflowLease)
    (inputs : d.buildInputs sprint live payload = .ok (d', service, payload')) :
    (∀ (history : History Commit) (c : Commit), remote (sourceBranch d' service) = some history →
      c ∈ history.commits → d.storedCommit = c.text →
      ((∃ tree db', prepareGitSource remote db now d' service lease = .ok (tree, db') ∧ tree.head.text = c.text) ↔
        history.tip.text = c.text)) ∧
    (d.storedCommit = "" →
      (∀ tree db', prepareGitSource remote db now d' service lease = .ok (tree, db') →
        ∀ row ∈ db'.deployments, row.id = d.id →
          row.commitSha = some tree.head.text ∧ row.commitHash = some tree.head.text) ∧
      ∀ history, remote (sourceBranch d' service) = some history → Pinnable db lease d.id →
        ∃ db', prepareGitSource remote db now d' service lease = .ok (⟨[history.tip], history.tip⟩, db')) := by
  refine ⟨?_, ?_⟩
  · intro history c hbranch _ hstored
    have hread := buildInputs_storedCommit inputs hstored
    rw [prepareGitSource_stored hbranch (by rw [hread]; exact c.text_ne_empty), hread]
    by_cases htip : history.tip.text = c.text
    · rw [if_pos htip]
      exact ⟨fun _ => htip, fun _ => ⟨_, _, rfl, htip⟩⟩
    · rw [if_neg htip]
      refine ⟨?_, fun h => absurd h htip⟩
      rintro ⟨tree, db', h, -⟩
      cases h
  · intro hnone
    obtain rfl := buildInputs_unpinned inputs hnone
    refine ⟨?_, ?_⟩
    · intro tree db' h
      cases hbranch : remote (sourceBranch d' service) with
      | none =>
        unfold prepareGitSource at h
        simp only [shallowClone, hbranch, Option.map_none] at h
        cases h
      | some history =>
        rw [prepareGitSource_unpinned hbranch hnone, pinRevision_eq] at h
        obtain ⟨stored, hstored, hpair⟩ := map_ok.1 h
        obtain ⟨rfl, rfl⟩ := Prod.mk.inj hpair
        exact updateDeploymentForLease_commit (mapError_ok.1 hstored)
    · intro history hbranch hpinnable
      obtain ⟨stored, hstored⟩ : ∃ stored,
          updateDeploymentForLease db lease d'.id (.commit history.tip.text) now = .ok stored :=
        updateDeploymentForLease_pinnable hpinnable
      refine ⟨stored, ?_⟩
      rw [prepareGitSource_unpinned hbranch hnone, pinRevision_eq]
      exact map_ok.2 ⟨stored, mapError_ok.2 hstored, rfl⟩

/-! ### A push that overtakes a build -/

namespace Overtaken

def commit (digit : Char) (h : normalizeGitCommitSHA (String.ofList (List.replicate 40 digit)) =
    .ok (String.ofList (List.replicate 40 digit))) : Commit :=
  ⟨String.ofList (List.replicate 40 digit), h⟩

def first : Commit := commit 'a' (by decide +kernel)

def second : Commit := commit 'b' (by decide +kernel)

/-- `main` after both were pushed. -/
def after : Remote Commit := fun branch =>
  if branch = "main" then some (History.push ⟨[], first⟩ second) else none

def deployment (commitSHA : String) : DeploymentRecord :=
  { id := "dep_1", triggerType := "push", branch := "main", commitSHA, commitHash := "", imageURL := ""
    imageDigest := "", sourceDeploymentID := "", retryOfDeploymentID := "", snapshotVersion := none
    desiredSpecSnapshot := .null }

def service : ServiceRecord :=
  { sourceType := "github", buildMode := "auto", repoURL := "https://github.com/o/r", rootDirectory := ""
    buildContext := "", dockerfilePath := "", installCommand := "", buildCommand := "", startCommand := ""
    outputDirectory := "", localPath := "", port := 0, branch := "main", image := "", imageURL := ""
    gitHubIntegrationID := "", gitHubInstallationID := "", gitHubRepositoryID := "", gitHubRepository := "" }

def lease : WorkflowLease := ⟨"job_1", "w1", 1⟩

def database : Database := ⟨[], [], [], []⟩

theorem branch : sourceBranch (deployment first.text) service = "main" := by decide +kernel

theorem stored : (deployment first.text).storedCommit = first.text := by decide +kernel

end Overtaken

open Overtaken in
/-- Of the two commits of the branch, the second is built: it is the tip. -/
theorem stored_commit_built_at_tip :
    ∃ tree db', prepareGitSource after database 0 (deployment second.text) service lease = .ok (tree, db') ∧
      tree.head.text = second.text := by
  have hinputs : (deployment second.text).buildInputs (fun _ => "") service [] =
      .ok (deployment second.text, service, []) := buildInputs_live rfl rfl (by decide +kernel)
  have hbranch : sourceBranch (deployment second.text) service = "main" := by decide +kernel
  obtain ⟨hstored, -⟩ := stored_commit_built_iff_tip (fun _ => "") after database 0 (deployment second.text)
    (deployment second.text) service service [] [] lease hinputs
  exact (hstored (History.push ⟨[], first⟩ second) second (by rw [hbranch]; rfl)
    (List.mem_append_right _ (List.mem_singleton.2 rfl)) (by decide +kernel)).2 rfl

open Overtaken in
/-- **After one more push the deployment of the first commit cannot be built.**  The commit is in the
history of the branch, but not in the clone. -/
theorem overtaken_commit_not_built :
    (∃ history, after (sourceBranch (deployment first.text) service) = some history ∧ first ∈ history.commits) ∧
      (deployment first.text).storedCommit = first.text ∧
      prepareGitSource after database 0 (deployment first.text) service lease = .error (.checkout first.text) := by
  have hbranch : after (sourceBranch (deployment first.text) service) =
      some (History.push ⟨[], first⟩ second) := by
    rw [branch]
    rfl
  refine ⟨⟨_, hbranch, List.mem_append_left _ (List.mem_singleton.2 rfl)⟩, stored, ?_⟩
  rw [prepareGitSource_stored hbranch (by rw [stored]; exact first.text_ne_empty), stored, if_neg (by decide +kernel)]

end RaibitServer.Builder
