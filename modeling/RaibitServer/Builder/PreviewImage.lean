import RaibitServer.Core.Secrets
import RaibitServer.Orchestrator.Spec
import RaibitServer.Builder.Fencing

/-!
# Builder.PreviewImage — what preview builds leave on their service

`PublishImageReady` is one transaction for deployments of every type, and it sets the image of the
service.  The service's image is read again by `captureDeploymentSnapshot`, which every later deployment
carries, and by `SpecFromState` for a deployment without an image of its own.

* `unpublished_previews_apart`: as long as no preview is published, the ends of previews leave the services,
  and all that is made of a service later is made of the image it had or of one that a production build
  published.
* `published_preview_replaces_image`: a published preview.
-/

namespace RaibitServer.Builder

open Lib Text Json

/-! ### Deployments with their type -/

section Types

-- The column `deploymentType`, which the builder's statements do not mention, by id.
variable (deploymentType : String → String)

def isPreview (deploymentID : String) : Bool := deploymentType deploymentID = "preview"

/-- The calls by which the build of a preview ends: its publication, the record of its failure, the
end of its job, and the reaping of exhausted jobs that comes with a claim. -/
def EndsPreview (db : Database) : Call → Prop
  | .publish i => isPreview deploymentType i.deploymentID
  | .updateDeployment _ deploymentID (.buildFailed _ _ _) => isPreview deploymentType deploymentID
  | .fail lease | .cancel lease =>
    ∃ j ∈ db.jobs, j.id = lease.jobID ∧ ∃ deploymentID, j.deploymentId = some deploymentID ∧
      isPreview deploymentType deploymentID
  | .claim _ => True
  | _ => False

def Event.publishesPreview : Event → Bool
  | .returned (.publish i) _ _ => isPreview deploymentType i.deploymentID
  | _ => false

end Types

/-- The columns `image`, `imageUrl` and `status` of every service are as they were. -/
def ServicesKept (db db' : Database) : Prop :=
  (db'.services.map fun s => (s.id, s.image, s.imageUrl, s.status)) =
    db.services.map fun s => (s.id, s.image, s.imageUrl, s.status)

def Service.images (s : Service) : String × Option String × Option String := (s.id, s.image, s.imageUrl)

/-- A call of a builder, or anything else that neither creates a service nor sets the image of one:
deployments and jobs are created, services change their status or are deleted. -/
inductive ServiceStep : Database → Event → Database → Prop
  | call {db db' : Database} {e : Event} (h : CallStep db e db') : ServiceStep db e db'
  | environment {db db' : Database} (h : ∀ s' ∈ db'.services, ∃ s ∈ db.services, s'.images = s.images) :
      ServiceStep db .environment db'

/-! ### What is made of a service later -/

/-- `packages/core/src/deployment-operations.ts`. -/
def captureDeploymentSnapshot (service : JsonObject) : Json :=
  let desiredState := (asObject (member service "desiredState")).getD []
  let desiredSpec := (asObject (member service "desiredSpec")).getD []
  let spec := overlay (overlay service desiredState) desiredSpec
  Core.maskSecrets (.obj (spec.filter fun m => m.1 ≠ "desiredState" && m.1 ≠ "desiredSpec"))

def snapshotMember (service : JsonObject) (key : String) : Option Json :=
  (asObject (some (captureDeploymentSnapshot service))).bind (member · key)

def nullable : Option String → Json
  | none => .null
  | some s => .str s

/-- The row as Prisma returns it; `columns` are the ones that the builder does not write. -/
def Service.record (s : Service) (columns : JsonObject) : JsonObject :=
  overlay columns [("id", .str s.id), ("projectId", .str s.projectId), ("status", .str s.status),
    ("image", nullable s.image), ("imageUrl", nullable s.imageUrl)]

/-- The row as the orchestrator scans it. -/
def Service.scanned (s : Service) (columns : Orchestrator.Service) : Orchestrator.Service :=
  { columns with id := s.id, imageURL := s.imageUrl.getD "" }

/-- Nothing made of the first service refers to another image than what is made of the second: neither a
snapshot nor the specification of a deployment. -/
structure Service.ReadsAs (s' s : Service) : Prop where
  snapshot : ∀ columns, ∀ key ∈ ["image", "imageUrl"],
    snapshotMember (s'.record columns) key = snapshotMember (s.record columns) key
  spec : ∀ columns deployment, Orchestrator.specImage (s'.scanned columns) deployment =
    Orchestrator.specImage (s.scanned columns) deployment

/-- A snapshot takes a name from `desiredSpec`, `desiredState` or the row itself. -/
theorem snapshotMember_congr {service service' : JsonObject} {key : String}
    (hkey : key ≠ "desiredState" ∧ key ≠ "desiredSpec") (hmember : member service key = member service' key)
    (hstate : member service "desiredState" = member service' "desiredState")
    (hspec : member service "desiredSpec" = member service' "desiredSpec") :
    snapshotMember service key = snapshotMember service' key := by
  have hmasked : ∀ row : JsonObject, snapshotMember row key = (member (overlay (overlay row
      ((asObject (member row "desiredState")).getD [])) ((asObject (member row "desiredSpec")).getD []))
        key).map (Core.maskMember key) := by
    intro row
    unfold snapshotMember captureDeploymentSnapshot
    rw [Core.maskSecrets]
    show member (Core.maskMembers _) key = _
    rw [Core.member_maskMembers,
      member_filter (p := fun name => name ≠ "desiredState" && name ≠ "desiredSpec") (by simpa using hkey)]
  rw [hmasked, hmasked, hstate, hspec]
  exact congrArg _ (member_overlay_congr (member_overlay_congr hmember _) _)

theorem readsAs_of_images {s' s : Service} (h : s'.images = s.images) : s'.ReadsAs s := by
  obtain ⟨hid, hrest⟩ := Prod.mk.inj h
  obtain ⟨himage, himageUrl⟩ := Prod.mk.inj hrest
  refine ⟨fun columns key hkey => ?_, fun columns deployment => ?_⟩
  · have hmembers : ∀ name ∉ ["projectId", "status"],
        member (s'.record columns) name = member (s.record columns) name := by
      intro name hname
      simp only [List.mem_cons, List.not_mem_nil, or_false, not_or] at hname
      simp only [Service.record, overlay, List.foldl_cons, List.foldl_nil, member_setMember, hid, himage,
        himageUrl, hname.1, hname.2, if_false]
    have hread : key = "image" ∨ key = "imageUrl" := by simpa using hkey
    refine snapshotMember_congr ?_ (hmembers key ?_) (hmembers _ (by decide)) (hmembers _ (by decide)) <;>
      rcases hread with rfl | rfl <;> decide
  · unfold Service.scanned
    rw [hid, himageUrl]

/-! ### Calls and the services -/

section Calls

variable {db db' : Database} {now : Micros} {call : Call} {r : Option WorkflowJob} {e : Event}

/-- Only a publication writes services. -/
theorem exec_services (h : exec db now call = .ok (db', r)) (hcall : ∀ i, call ≠ .publish i) :
    db'.services = db.services := by
  cases call with
  | claim o =>
    rw [← show _ = db' from congrArg Prod.fst (Except.ok.inj h)]
    unfold claimNextWorkflowJob
    split <;> rfl
  | renew lease =>
    obtain ⟨-, rfl⟩ := renewWorkflowJobLease_ok (ok_of_map h)
    rfl
  | startBuild i =>
    obtain ⟨-, -, rfl⟩ := startBuild_ok (ok_of_map h)
    rfl
  | updateDeployment lease D u =>
    obtain ⟨-, v, -, rfl⟩ := updateDeploymentForLease_ok (ok_of_map h)
    rfl
  | publish i => exact absurd rfl (hcall i)
  | complete lease | fail lease | cancel lease =>
    obtain ⟨job, -, -, -, rfl⟩ := updateWorkflowJob_ok (ok_of_map h)
    rfl

/-! ### Runs -/

variable {es : List Event}

/-- The row has the image it had, or one that was published for it. -/
def Service.StemsFrom (es : List Event) (s s' : Service) : Prop :=
  s'.images = s.images ∨ ∃ i now r, .returned (.publish i) now r ∈ es ∧ i.serviceID = s.id ∧
    s'.images = (setServiceImage i s).images

theorem Service.StemsFrom.id_eq {s s' : Service} (h : s.StemsFrom es s') : s'.id = s.id := by
  rcases h with h | ⟨i, now, r, -, -, h⟩ <;> exact congrArg Prod.fst h

theorem Service.StemsFrom.later {s s' s'' : Service} (h : s.StemsFrom es s') (himages : s''.images = s'.images)
    (e : Event) : s.StemsFrom (es ++ [e]) s'' := by
  unfold StemsFrom
  rw [himages]
  exact h.imp_right fun ⟨i, now, r, hi, hrest⟩ => ⟨i, now, r, List.mem_append_left _ hi, hrest⟩

theorem step_stemsFrom (step : ServiceStep db e db') {s' : Service} (hs' : s' ∈ db'.services) :
    ∃ s ∈ db.services, s'.images = s.images ∨ ∃ i now r, e = .returned (.publish i) now r ∧
      i.serviceID = s.id ∧ s'.images = (setServiceImage i s).images := by
  cases step with
  | environment h =>
    obtain ⟨s, hs, himages⟩ := h s' hs'
    exact ⟨s, hs, .inl himages⟩
  | call h =>
    cases h with
    | refused _ => exact ⟨s', hs', .inl rfl⟩
    | @returned _ call now r h =>
      by_cases hcall : ∀ i, call ≠ .publish i
      · rw [exec_services h hcall] at hs'
        exact ⟨s', hs', .inl rfl⟩
      · obtain ⟨i, rfl⟩ := not_forall_not.1 hcall
        obtain ⟨job, -, -, -, rfl⟩ := publishImageReady_ok (ok_of_map h)
        obtain ⟨s, hs, rfl⟩ := Sql.mem_update.1 hs'
        refine ⟨s, hs, ?_⟩
        split_ifs with hid
        · exact .inr ⟨i, now, r, rfl, (of_decide_eq_true hid).symm, rfl⟩
        · exact .inl rfl

theorem run_stemsFrom (run : Run ServiceStep db es db') :
    ∀ s' ∈ db'.services, ∃ s ∈ db.services, s.StemsFrom es s' := by
  induction run with
  | nil => exact fun s' hs' => ⟨s', hs', .inl rfl⟩
  | snoc run step ih =>
    intro s'' hs''
    obtain ⟨s', hs', himages⟩ := step_stemsFrom step hs''
    obtain ⟨s, hs, hstems⟩ := ih s' hs'
    refine ⟨s, hs, ?_⟩
    rcases himages with himages | ⟨i, now, r, rfl, hi, himages⟩
    · exact hstems.later himages _
    · refine .inr ⟨i, now, r, List.mem_append_right _ List.mem_cons_self, hi.trans hstems.id_eq, ?_⟩
      rw [himages]
      show (s'.id, some i.imageURL, some i.imageURL) = (s.id, some i.imageURL, some i.imageURL)
      rw [hstems.id_eq]

/-- **Previews that are not published stay apart from production**: the calls by which they end keep image,
image address and status of every service, and after any run what is made of a service refers to the image
that the service had or to one that the build of a production deployment published for it. -/
theorem unpublished_previews_apart {deploymentType : String → String} (run : Run ServiceStep db es db')
    (unpublished : ∀ e ∈ es, e.publishesPreview deploymentType = false) :
    (∀ call now r m m', .returned call now r ∈ es → EndsPreview deploymentType m call →
      exec m now call = .ok (m', r) → ServicesKept m m') ∧
    ∀ s' ∈ db'.services, ∃ s ∈ db.services, s'.id = s.id ∧ (s'.ReadsAs s ∨
      ∃ i now r, .returned (.publish i) now r ∈ es ∧ i.serviceID = s.id ∧
        isPreview deploymentType i.deploymentID = false ∧ s'.ReadsAs (setServiceImage i s)) := by
  refine ⟨fun call now r m m' he ends h => ?_, fun s' hs' => ?_⟩
  · have hcall : ∀ i, call ≠ .publish i := by
      rintro i rfl
      exact Bool.false_ne_true ((unpublished _ he).symm.trans ends)
    unfold ServicesKept
    rw [exec_services h hcall]
  obtain ⟨s, hs, hstems⟩ := run_stemsFrom run s' hs'
  refine ⟨s, hs, hstems.id_eq, hstems.imp readsAs_of_images ?_⟩
  rintro ⟨i, now, r, hi, hid, himages⟩
  exact ⟨i, now, r, hi, hid, unpublished _ hi, readsAs_of_images himages⟩

end Calls

/-! ### A pull request -/

namespace PullRequest

def job (id type deploymentID : String) : WorkflowJob :=
  { Sample.job with
    id, type, status := .running, targetId := deploymentID, payloadDeploymentId := none, attempts := 1
    lockedBy := some "builder", lockedAt := some 0 }

def deployment (id : String) : Deployment :=
  { Sample.deployment with id, serviceId := "svc", projectId := "prj", status := "BUILDING" }

/-- A service in production; its next version and the preview of pull request 7 are being built. -/
def database : Database :=
  { jobs := [job "job_pr" "preview-deploy" "dep_pr", job "job_main" "build-and-deploy" "dep_main"],
    deployments := [deployment "dep_pr", deployment "dep_main"],
    services := [⟨"svc", "prj", "ready", some "r.io/app/main", some "r.io/app/main", 0⟩],
    projects := [⟨"prj", "active"⟩] }

def deploymentType (id : String) : String := if id = "dep_pr" then "preview" else "production"

def lease (jobID : String) : WorkflowLease := ⟨jobID, "builder", 1⟩

def publication : ImagePublicationInput :=
  ⟨lease "job_pr", "dep_pr", "svc", "prj", "r.io/app/pr7", "sha256:7", 1000000⟩

/-- The preview fails, and the next version is published. -/
def calls : List (Call × Micros) :=
  [(.fail (lease "job_pr"), 1000000),
    (.publish ⟨lease "job_main", "dep_main", "svc", "prj", "r.io/app/next", "sha256:8", 2000000⟩, 2000000)]

/-- A production deployment that has no image of its own. -/
def production : Orchestrator.Deployment :=
  { id := "dep_next", serviceID := "svc", projectID := "prj", deploymentType := "production" }

def columns : Orchestrator.Service :=
  { id := "svc", name := "web", slug := "web", type := "web", port := 80, replicas := 1 }

end PullRequest

open PullRequest in
theorem unpublished_previews_apart_failed : ∃ es db' m, Run ServiceStep database es db' ∧
    db'.services.map Service.images = [("svc", some "r.io/app/next", some "r.io/app/next")] ∧
    EndsPreview deploymentType database (.fail (lease "job_pr")) ∧
    exec database 1000000 (.fail (lease "job_pr")) = .ok (m, none) ∧
    ServicesKept database m ∧
    ∀ s' ∈ db'.services, ∃ s ∈ database.services, s'.id = s.id ∧ (s'.ReadsAs s ∨
      ∃ i now r, .returned (.publish i) now r ∈ es ∧ i.serviceID = s.id ∧
        isPreview deploymentType i.deploymentID = false ∧ s'.ReadsAs (setServiceImage i s)) := by
  obtain ⟨es, db', hrun, hcheck⟩ := Run.exists_of_trace
    (fun db call e db' h => ServiceStep.call (step_of_performCall db call e db' h)) database
    calls
    (fun es db' => (∀ e ∈ es, e.publishesPreview deploymentType = false) ∧
      .returned (.fail (lease "job_pr")) 1000000 none ∈ es ∧
      db'.services.map Service.images = [("svc", some "r.io/app/next", some "r.io/app/next")])
    (by decide +kernel)
  obtain ⟨hunpublished, hfailed, himages⟩ := of_decide_eq_true hcheck
  obtain ⟨m, hm⟩ : ∃ m, exec database 1000000 (.fail (lease "job_pr")) =
      .ok (m, none) := ⟨_, rfl⟩
  have hends : EndsPreview deploymentType database
      (.fail (lease "job_pr")) :=
    ⟨_, List.mem_cons_self, rfl, "dep_pr", by decide +kernel, by decide⟩
  have hapart := unpublished_previews_apart hrun hunpublished
  exact ⟨es, db', m, hrun, himages, hends, hm, hapart.1 _ _ _ _ _ hfailed hends hm, hapart.2⟩

open PullRequest in
/-- The publication of the preview replaces the production image of the service; what is captured from
the service then, and what a production deployment without an image runs, is the pull request's. -/
theorem published_preview_replaces_image : ∃ db' s,
    isPreview deploymentType "dep_pr" ∧
    isPreview deploymentType production.id = false ∧
    exec database 1000000 (.publish publication) = .ok (db', none) ∧
    db'.services = [s] ∧ s.image = some "r.io/app/pr7" ∧
    asString (snapshotMember (s.record []) "imageUrl") = some "r.io/app/pr7" ∧
    Orchestrator.specImage (s.scanned columns) production = "r.io/app/pr7" ∧
    ¬ ServicesKept database db' := by
  obtain ⟨db', hdb', hservices⟩ : ∃ db',
      exec database 1000000 (.publish publication) = .ok (db', none) ∧
      db'.services = [⟨"svc", "prj", "image-ready", some "r.io/app/pr7", some "r.io/app/pr7", 1000000⟩] :=
    ⟨_, rfl, by decide +kernel⟩
  refine ⟨db', _, by decide, by decide, hdb', hservices, rfl, by decide +kernel, by decide +kernel, ?_⟩
  unfold ServicesKept
  rw [hservices]
  decide

end RaibitServer.Builder
