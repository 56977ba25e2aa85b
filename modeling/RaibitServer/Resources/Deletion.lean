import RaibitServer.Resources.Store

/-!
# Resources.Deletion — what the deletion of a resource touches

`Confined` says that a deletion keeps to its resource: of everything else only the entries that its
attachments injected disappear from the specs of services.

* `deletion_confined_iff`: exactly when a deletion is confined.  It also cancels what runs in the project
  of the resource, takes entries out by name, and masks the specs it rewrites.
* `deletion_cancels_project`: a deletion that is not.
-/

namespace RaibitServer.Resources

open Lib Core

/-! ### The specification -/

/-- `{ name, valueFrom: { secretKeyRef: { name, key } } }`, with the members of each object in the order in
which the column `desiredSpec` returns them. -/
def IsSecretEnvEntry (name : String) (reference : SecretKeyRef) (entry : Json) : Prop :=
  ∃ keyRef valueFrom,
    Json.IsObject [("name", .str reference.name), ("key", .str reference.key)] keyRef ∧
      Json.IsObject [("secretKeyRef", keyRef)] valueFrom ∧
        Json.IsObject [("name", .str name), ("valueFrom", valueFrom)] entry

/-- The entry is one that the attachment injected. -/
def Attachment.Injects (a : Attachment) (entry : Json) : Prop :=
  ∃ e ∈ a.injectedEnv, IsSecretEnvEntry e.1 e.2 entry

/-- The entry is one that an attachment of the resource injected into the service. -/
def InjectedBy (db : Database) (resourceId serviceId : String) (entry : Json) : Prop :=
  ∃ a ∈ db.attachments.rows, a.resourceId = resourceId ∧ a.serviceId = serviceId ∧ a.Injects entry

open Classical in
/-- The entries that the resource did not inject. -/
noncomputable def foreign (db : Database) (resourceId serviceId : String) (entries : List Json) : List Json :=
  entries.filter fun entry => ¬ InjectedBy db resourceId serviceId entry

/-- The service without what the resource injected into it. -/
noncomputable def withoutInjected (db : Database) (resourceId : String) (s : Service) : Service :=
  match secretEnvOf s.desiredSpec with
  | none => s
  | some entries => s.setSpec (withSecretEnv s.desiredSpec (foreign db resourceId s.id entries))

structure Confined (db db' : Database) (resourceId : String) : Prop where
  deployments : db'.deployments = db.deployments
  projects : db'.projects = db.projects
  resources : db'.resources.select (fun r => r.id ≠ resourceId) =
    db.resources.select (fun r => r.id ≠ resourceId)
  attachments : db'.attachments.select (fun a => a.resourceId ≠ resourceId) =
    db.attachments.select (fun a => a.resourceId ≠ resourceId)
  environment : db'.environment.select (fun v => v.source ≠ resourceSource resourceId) =
    db.environment.select (fun v => v.source ≠ resourceSource resourceId)
  workflowJobs : db'.workflowJobs.select (fun j => (j.targetType, j.targetId) ≠ ("resource", resourceId)) =
    db.workflowJobs.select (fun j => (j.targetType, j.targetId) ≠ ("resource", resourceId))
  services : db'.services.rows = db.services.rows.map (withoutInjected db resourceId)

/-- The tables after the call; a transaction that fails changes nothing. -/
def afterDeleteResource (db : Database) (resourceId : String) (now : Nat) : Database :=
  match deleteResource db resourceId now with
  | .ok (db', _) => db'
  | .error _ => db

/-! ### The condition -/

/-- Nothing runs in the project of the resource. -/
structure ProjectIdle (db : Database) (projectId : String) : Prop where
  deployments : ∀ d ∈ db.deployments.rows, (projectId ≠ "" → d.projectId = projectId) →
    d.status ∈ terminalDeploymentStatuses
  jobs : ∀ j ∈ db.workflowJobs.rows, projectId ≠ "" → j.targetType = "project" → j.targetId = projectId →
    j.status ∈ terminalWorkflowStatuses

/-- The names an attachment injects are its own in the spec of the service, and the spec is masked. -/
structure SpecOwned (a : Attachment) (spec : Record) (entries : List Json) : Prop where
  names : ∀ entry ∈ entries, entryName entry ∈ a.keys → a.Injects entry
  members : ∀ m ∈ spec.rows, m.1 ≠ "secretEnv" → maskMember m.1 m.2 = m.2
  entries : ∀ entry ∈ entries, entryName entry ∉ a.keys → maskSecrets entry = entry

/-- What a deletion needs in order to keep to its resource. -/
structure Separate (db : Database) (current : Resource) : Prop where
  idle : ProjectIdle db current.projectId
  specs : ∀ a ∈ db.attachments.rows, a.resourceId = current.id → a.keys ≠ [] →
    ∀ s ∈ db.services.rows, s.id = a.serviceId → ∀ entries, secretEnvOf s.desiredSpec = some entries →
      SpecOwned a s.desiredSpec entries

/-! ### Specs -/

theorem entryName_of_isSecretEnvEntry {name : String} {reference : SecretKeyRef} {entry : Json}
    (h : IsSecretEnvEntry name reference entry) : entryName entry = name := by
  obtain ⟨-, valueFrom, -, -, members, rfl, hperm⟩ := h
  have hnames : (members.map Prod.fst).Nodup := (hperm.map Prod.fst).nodup_iff.2 (by simp)
  have hmember : Json.member members "name" = some (.str name) := Json.member_perm hperm hnames "name"
  unfold entryName
  dsimp only
  rw [hmember]
  show (if (name != "") = true then name else "") = name
  by_cases hname : name = "" <;> simp [hname]

variable {a : Attachment} {entries : List Json} {s : Service} {db : Database} {resourceId : String} {current : Resource}

theorem entryName_mem_keys {entry : Json} (h : a.Injects entry) : entryName entry ∈ a.keys := by
  obtain ⟨e, he, hentry⟩ := h
  rw [entryName_of_isSecretEnvEntry hentry]
  exact List.mem_map_of_mem he

theorem withSecretEnv_self {spec : Record} (h : secretEnvOf spec = some entries) : withSecretEnv spec entries = spec :=
  Keyed.put_of_mem (Keyed.get?_eq_some.1 (secretEnvOf_eq_some.1 h)).1

/-- A rewritten spec is the spec with other entries exactly when masking finds nothing to do. -/
theorem sanitizeJson_withSecretEnv_eq_iff {spec : Record} {old kept : List Json} (h : secretEnvOf spec = some old) :
    sanitizeJson (withSecretEnv spec kept) = withSecretEnv spec entries ↔
      (∀ m ∈ spec.rows, m.1 ≠ "secretEnv" → maskMember m.1 m.2 = m.2) ∧ kept.map maskSecrets = entries := by
  have hmem := (Keyed.get?_eq_some.1 (secretEnvOf_eq_some.1 h)).1
  have hkey : "secretEnv" ∈ spec.keys := List.mem_map_of_mem (f := Prod.fst) hmem
  have hrows : ∀ l : List Json, (withSecretEnv spec l).rows =
      spec.rows.map fun m => if m.1 = "secretEnv" then ("secretEnv", Json.arr l) else m :=
    fun l => Keyed.put_rows_of_mem (a := ("secretEnv", Json.arr l)) hkey
  have hsan : (sanitizeJson (withSecretEnv spec kept)).rows =
      spec.rows.map fun m => if m.1 = "secretEnv" then ("secretEnv", Json.arr (kept.map maskSecrets))
        else (m.1, maskMember m.1 m.2) := by
    show (withSecretEnv spec kept).rows.map _ = _
    rw [hrows, List.map_map]
    refine List.map_congr_left fun m _ => ?_
    by_cases hm : m.1 = "secretEnv" <;> simp [hm, maskedMember, maskMember_arr]
  have hiff : sanitizeJson (withSecretEnv spec kept) = withSecretEnv spec entries ↔
      (sanitizeJson (withSecretEnv spec kept)).rows = (withSecretEnv spec entries).rows :=
    ⟨fun heq => congrArg _ heq, Keyed.ext_rows⟩
  rw [hiff, hsan, hrows, List.map_inj_left]
  constructor
  · intro heq
    refine ⟨fun m hm hne => ?_, ?_⟩
    · have hfix := heq m hm
      rw [if_neg hne, if_neg hne] at hfix
      exact (Prod.mk.inj hfix).2
    · have hfix := heq _ hmem
      simpa using hfix
  · rintro ⟨hmask, hkept⟩ m hm
    by_cases hne : m.1 = "secretEnv"
    · rw [if_pos hne, if_pos hne, hkept]
    · rw [if_neg hne, if_neg hne, hmask m hm hne]

/-! ### Services -/

/-- One attachment's share in the revocation of a service. -/
def revokeFrom (s : Service) (a : Attachment) : Service := if losesSecretEnv a s then dropSecretEnv a s else s

theorem revokeFrom_id (s : Service) (a : Attachment) : (revokeFrom s a).id = s.id := by
  unfold revokeFrom
  split_ifs <;> rfl

theorem revokeFrom_ne (h : a.serviceId ≠ s.id) : revokeFrom s a = s := by
  have hloses : losesSecretEnv a s = false := by
    unfold losesSecretEnv
    rw [decide_eq_false (Ne.symm h)]
    rfl
  unfold revokeFrom
  rw [hloses]
  rfl

theorem foldl_revokeFrom_of_ne {l : List Attachment} (h : ∀ a ∈ l, a.serviceId ≠ s.id) : l.foldl revokeFrom s = s := by
  induction l with
  | nil => rfl
  | cons a l ih =>
    rw [List.foldl_cons, revokeFrom_ne (h a List.mem_cons_self)]
    exact ih fun b hb => h b (List.mem_cons_of_mem a hb)

/-- Of attachments to different services only one touches a service. -/
theorem foldl_revokeFrom_of_mem {l : List Attachment} (hl : (l.map Attachment.serviceId).Nodup) (ha : a ∈ l)
    (hs : a.serviceId = s.id) : l.foldl revokeFrom s = revokeFrom s a := by
  induction l with
  | nil => simp at ha
  | cons b l ih =>
    rw [List.map_cons, List.nodup_cons] at hl
    rw [List.foldl_cons]
    rcases List.mem_cons.1 ha with rfl | ha
    · refine foldl_revokeFrom_of_ne fun c hc hcs => hl.1 ?_
      rw [hs, ← revokeFrom_id s a, ← hcs]
      exact List.mem_map_of_mem hc
    · have hb : b.serviceId ≠ s.id := fun hbs => hl.1 (by
        rw [hbs, ← hs]
        exact List.mem_map_of_mem ha)
      rw [revokeFrom_ne hb]
      exact ih hl.2 ha

theorem mem_attachmentsOf :
    a ∈ attachmentsOf db [resourceId] ↔ a ∈ db.attachments.rows ∧ a.resourceId = resourceId := by
  unfold attachmentsOf Keyed.select
  rw [List.mem_filter]
  simp

theorem attachmentsOf_services_nodup (db : Database) (resourceId : String) :
    ((attachmentsOf db [resourceId]).map Attachment.serviceId).Nodup := by
  have hpairs : ((attachmentsOf db [resourceId]).map Attachment.pair).Nodup :=
    db.attachments.nodup.sublist (List.filter_sublist.map _)
  have hmap : (attachmentsOf db [resourceId]).map Attachment.pair =
      ((attachmentsOf db [resourceId]).map Attachment.serviceId).map (Prod.mk resourceId) := by
    rw [List.map_map]
    refine List.map_congr_left fun a ha => ?_
    show (a.resourceId, a.serviceId) = (resourceId, a.serviceId)
    rw [(mem_attachmentsOf.1 ha).2]
  rw [hmap] at hpairs
  exact hpairs.of_map _

/-- A service that nothing of the resource is attached to stays as it is. -/
theorem withoutInjected_of_none (h : ∀ entry, ¬ InjectedBy db resourceId s.id entry) :
    withoutInjected db resourceId s = s := by
  unfold withoutInjected
  cases hspec : secretEnvOf s.desiredSpec with
  | none => rfl
  | some entries =>
    have hall : foreign db resourceId s.id entries = entries :=
      List.filter_eq_self.2 fun entry _ => by simpa using h entry
    dsimp only
    rw [hall, withSecretEnv_self hspec]
    rfl

/-- The entries left over are the expected ones exactly when the names belong to the attachment. -/
theorem kept_eq_iff {q : Json → Bool} (hq : ∀ entry, q entry = true ↔ ¬ a.Injects entry) :
    (entries.filter fun entry => !a.keys.contains (entryName entry)).map maskSecrets = entries.filter q ↔
      (∀ entry ∈ entries, entryName entry ∈ a.keys → a.Injects entry) ∧
        ∀ entry ∈ entries, entryName entry ∉ a.keys → maskSecrets entry = entry := by
  have himp : ∀ entry, (!a.keys.contains (entryName entry)) = true → q entry = true := by
    intro entry hkept
    rw [hq]
    intro hinjects
    simp [entryName_mem_keys hinjects] at hkept
  constructor
  · intro heq
    have hsub : (entries.filter fun entry => !a.keys.contains (entryName entry)).Sublist (entries.filter q) :=
      List.monotone_filter_right entries himp
    have hsame := hsub.eq_of_length (by rw [← heq, List.length_map])
    refine ⟨fun entry hentry hname => ?_, fun entry hentry hname => ?_⟩
    · by_contra hnot
      have hin : entry ∈ entries.filter q := List.mem_filter.2 ⟨hentry, (hq entry).2 hnot⟩
      rw [← hsame] at hin
      have hkept := (List.mem_filter.1 hin).2
      simp [hname] at hkept
    · have hkept : entry ∈ entries.filter fun entry => !a.keys.contains (entryName entry) :=
        List.mem_filter.2 ⟨hentry, by simpa using hname⟩
      rw [← hsame] at heq
      nth_rewrite 2 [← List.map_id (entries.filter fun entry => !a.keys.contains (entryName entry))] at heq
      exact List.map_inj_left.1 heq entry hkept
  · rintro ⟨hnames, hmasked⟩
    have hsame : (entries.filter fun entry => !a.keys.contains (entryName entry)) = entries.filter q := by
      refine List.filter_congr fun entry hentry => Bool.eq_iff_iff.2 ⟨himp entry, fun hqe => ?_⟩
      have hnot : entryName entry ∉ a.keys := fun hname => (hq entry).1 hqe (hnames entry hentry hname)
      simpa using hnot
    rw [← hsame]
    refine (List.map_congr_left fun entry hentry => ?_).trans (List.map_id _)
    obtain ⟨hentry, hname⟩ := List.mem_filter.1 hentry
    exact hmasked entry hentry (by simpa using hname)

/-- The share of the attachment itself. -/
theorem revokeFrom_eq_withoutInjected_iff (ha : a ∈ db.attachments.rows) (hs : a.serviceId = s.id) :
    revokeFrom s a = withoutInjected db a.resourceId s ↔
      (a.keys ≠ [] → ∀ entries, secretEnvOf s.desiredSpec = some entries →
        SpecOwned a s.desiredSpec entries) := by
  have hinj : ∀ entry, InjectedBy db a.resourceId s.id entry ↔ a.Injects entry := by
    intro entry
    constructor
    · rintro ⟨b, hb, hbr, hbs, hbe⟩
      have hpair : b.pair = a.pair := by
        show (b.resourceId, b.serviceId) = (a.resourceId, a.serviceId)
        rw [hbr, hbs, hs]
      rwa [← Keyed.eq_of_key hb ha hpair]
    · exact fun he => ⟨a, ha, rfl, hs, he⟩
  by_cases hkeys : a.keys = []
  · have hnone : ∀ entry, ¬ InjectedBy db a.resourceId s.id entry := by
      intro entry hentry
      have hmem := entryName_mem_keys ((hinj entry).1 hentry)
      rw [hkeys] at hmem
      simp at hmem
    have hloses : losesSecretEnv a s = false := by simp [losesSecretEnv, hkeys]
    rw [withoutInjected_of_none hnone]
    unfold revokeFrom
    simp [hloses, hkeys]
  cases hspec : secretEnvOf s.desiredSpec with
  | none =>
    have hloses : losesSecretEnv a s = false := by simp [losesSecretEnv, hspec]
    unfold revokeFrom withoutInjected
    simp [hloses, hspec]
  | some entries =>
    have hloses : losesSecretEnv a s = true := by simp [losesSecretEnv, hspec, hkeys, hs]
    have hrevoked : revokeFrom s a = s.setSpec (sanitizeJson (withSecretEnv s.desiredSpec
        (entries.filter fun entry => !a.keys.contains (entryName entry)))) := by
      unfold revokeFrom dropSecretEnv
      rw [if_pos hloses, hspec, Option.getD_some]
    have hwithout : withoutInjected db a.resourceId s =
        s.setSpec (withSecretEnv s.desiredSpec (foreign db a.resourceId s.id entries)) := by
      unfold withoutInjected
      rw [hspec]
    have hspecs : revokeFrom s a = withoutInjected db a.resourceId s ↔
        sanitizeJson (withSecretEnv s.desiredSpec
          (entries.filter fun entry => !a.keys.contains (entryName entry))) =
            withSecretEnv s.desiredSpec (foreign db a.resourceId s.id entries) := by
      rw [hrevoked, hwithout]
      exact ⟨fun h => congrArg Service.desiredSpec h, fun h => by rw [h]⟩
    rw [hspecs, sanitizeJson_withSecretEnv_eq_iff hspec]
    unfold foreign
    rw [kept_eq_iff fun entry => by simp [hinj]]
    constructor
    · rintro ⟨hmembers, hnames, hentries⟩ - entries' hentries'
      obtain rfl := Option.some.inj hentries'
      exact ⟨hnames, hmembers, hentries⟩
    · intro h
      obtain ⟨hnames, hmembers, hentries⟩ := h hkeys entries rfl
      exact ⟨hmembers, hnames, hentries⟩

/-- The specs after a revocation are the expected ones exactly when each attachment owns its names. -/
theorem revoked_services_iff (db : Database) (resourceId : String) :
    (revokeResourceAttachments db [resourceId]).1.services.rows =
        db.services.rows.map (withoutInjected db resourceId) ↔
      ∀ a ∈ db.attachments.rows, a.resourceId = resourceId → a.keys ≠ [] →
        ∀ s ∈ db.services.rows, s.id = a.serviceId → ∀ entries, secretEnvOf s.desiredSpec = some entries →
          SpecOwned a s.desiredSpec entries := by
  have hrows : (revokeResourceAttachments db [resourceId]).1.services.rows = db.services.rows.map fun s =>
      (attachmentsOf db [resourceId]).foldl revokeFrom s := Keyed.rows_foldl_update _ _ _
  rw [hrows, List.map_inj_left]
  constructor
  · rintro h a ha rfl hkeys s hs hid
    have hfold := h s hs
    rw [foldl_revokeFrom_of_mem (attachmentsOf_services_nodup db _) (mem_attachmentsOf.2 ⟨ha, rfl⟩) hid.symm]
      at hfold
    exact (revokeFrom_eq_withoutInjected_iff ha hid.symm).1 hfold hkeys
  · intro h s hs
    by_cases hatt : ∃ a ∈ attachmentsOf db [resourceId], a.serviceId = s.id
    · obtain ⟨a, ha, hid⟩ := hatt
      rw [foldl_revokeFrom_of_mem (attachmentsOf_services_nodup db _) ha hid]
      obtain ⟨hrow, rfl⟩ := mem_attachmentsOf.1 ha
      exact (revokeFrom_eq_withoutInjected_iff hrow hid).2 fun hkeys => h a hrow rfl hkeys s hs hid.symm
    · have hne : ∀ a ∈ attachmentsOf db [resourceId], a.serviceId ≠ s.id := fun a ha hid => hatt ⟨a, ha, hid⟩
      rw [foldl_revokeFrom_of_ne hne, withoutInjected_of_none]
      rintro entry ⟨a, ha, har, hid, -⟩
      exact hne a (mem_attachmentsOf.2 ⟨ha, har⟩) hid

/-! ### The other tables -/

/-- The row a deletion leaves behind in the table of deployments differs from one that still runs. -/
theorem cancelledDeployment_ne {now : Nat} {d : Deployment} (h : d.status ∉ terminalDeploymentStatuses) :
    cancelledDeployment now d ≠ d := by
  intro heq
  have hstatus : "CANCELLED" = d.status := congrArg Deployment.status heq
  exact h (hstatus ▸ cancelled_mem_terminalDeploymentStatuses)

theorem cancelledJob_ne {j : WorkflowJob} (h : j.status ∉ terminalWorkflowStatuses) : cancelledJob j ≠ j := by
  intro heq
  have hstatus : "cancelled" = j.status := congrArg WorkflowJob.status heq
  exact h (hstatus ▸ cancelled_mem_terminalWorkflowStatuses)

/-- The scope of the deletion of a single resource. -/
def resourceScope (current : Resource) : DeletionScope := ⟨current.projectId, [], [current.id], []⟩

theorem resourceScope_holds {d : Deployment} :
    (resourceScope current).holds d = true ↔ (current.projectId ≠ "" → d.projectId = current.projectId) := by
  show (if current.projectId ≠ "" then decide (d.projectId = current.projectId) else true) = true ↔ _
  by_cases h : current.projectId = "" <;> simp [h]

theorem mem_resourceScope_targets {target : String × String} :
    target ∈ (resourceScope current).targets ↔
      (current.projectId ≠ "" ∧ target = ("project", current.projectId)) ∨ target = ("resource", current.id) := by
  show target ∈ (if current.projectId ≠ "" then [("project", current.projectId)] else []) ++ [] ++
    [("resource", current.id)] ++ [] ↔ _
  by_cases h : current.projectId = "" <;> simp [h]

theorem cancelled_deployments_iff (db : Database) (current : Resource) (now : Nat) :
    (cancelDeletionWork db (resourceScope current) now).deployments = db.deployments ↔
      ∀ d ∈ db.deployments.rows, (current.projectId ≠ "" → d.projectId = current.projectId) →
        d.status ∈ terminalDeploymentStatuses := by
  have hiff : (cancelDeletionWork db (resourceScope current) now).deployments = db.deployments ↔
      (cancelDeletionWork db (resourceScope current) now).deployments.select (fun _ => true) =
        db.deployments.select fun _ => true := by
    unfold Keyed.select
    rw [List.filter_true, List.filter_true]
    exact ⟨fun h => congrArg _ h, Keyed.ext_rows⟩
  rw [hiff]
  unfold cancelDeletionWork
  dsimp only
  rw [Keyed.select_update_eq_iff fun _ => by rfl]
  refine forall₂_congr fun d _ => ?_
  rw [Bool.and_eq_true, resourceScope_holds]
  constructor
  · intro h hscope
    by_contra hlive
    exact cancelledDeployment_ne hlive (h rfl ⟨by simpa using hlive, hscope⟩)
  · rintro h - ⟨hlive, hscope⟩
    exact absurd (h hscope) (by simpa using hlive)

theorem cancelled_jobs_iff (db : Database) (current : Resource) (now : Nat) :
    (cancelDeletionWork db (resourceScope current) now).workflowJobs.select
        (fun j => (j.targetType, j.targetId) ≠ ("resource", current.id)) =
      db.workflowJobs.select (fun j => (j.targetType, j.targetId) ≠ ("resource", current.id)) ↔
      ∀ j ∈ db.workflowJobs.rows, current.projectId ≠ "" → j.targetType = "project" →
        j.targetId = current.projectId → j.status ∈ terminalWorkflowStatuses := by
  unfold cancelDeletionWork
  dsimp only
  rw [Keyed.select_update_eq_iff fun _ => by rfl]
  refine forall₂_congr fun j _ => ?_
  rw [Bool.and_eq_true, List.contains_iff_mem, mem_resourceScope_targets, decide_eq_true_iff]
  constructor
  · intro h hproject htype hid
    by_contra hlive
    have htarget : (j.targetType, j.targetId) = ("project", current.projectId) := by rw [htype, hid]
    refine cancelledJob_ne hlive (h ?_ ⟨by simpa using hlive, .inl ⟨hproject, htarget⟩⟩)
    rw [htarget]
    simp
  · rintro h hne ⟨hlive, ⟨hproject, htarget⟩ | htarget⟩
    · obtain ⟨htype, hid⟩ := Prod.mk.inj htarget
      exact absurd (h hproject htype hid) (by simpa using hlive)
    · exact absurd htarget hne

/-- Only rows that name the resource as their source are deleted. -/
theorem revoked_environment (db : Database) (resourceId : String) :
    (revokeResourceAttachments db [resourceId]).1.environment.select
        (fun v => v.source ≠ resourceSource resourceId) =
      db.environment.select (fun v => v.source ≠ resourceSource resourceId) := by
  refine Keyed.select_filter fun v hv hsource => ?_
  rw [Bool.not_eq_true', Bool.eq_false_iff, ne_eq, List.contains_iff_mem]
  intro hin
  obtain ⟨row, hrow, hpair⟩ := List.mem_map.1 hin
  obtain ⟨a, ha, hrow⟩ := List.mem_flatMap.1 hrow
  obtain ⟨hmem, hcond⟩ := List.mem_filter.1 hrow
  obtain rfl := Keyed.eq_of_key hmem hv hpair
  obtain ⟨-, hresource⟩ := mem_attachmentsOf.1 ha
  simp only [Bool.and_eq_true, decide_eq_true_eq, hresource] at hcond
  exact of_decide_eq_true hsource hcond.2

theorem marked_resources (t : Keyed Resource.id) (resourceId : String) (requestedAt : Nat) :
    (markResources t (fun r => r.id = resourceId) requestedAt).select (fun r => r.id ≠ resourceId) =
      t.select (fun r => r.id ≠ resourceId) := by
  refine Keyed.select_update fun r _ hr => ?_
  have hid : r.id = resourceId := of_decide_eq_true (Bool.and_eq_true_iff.1 hr).1
  exact ⟨decide_eq_false (not_not_intro hid), decide_eq_false (not_not_intro hid)⟩

/-! ### The deletion -/

/-- A deletion that goes through revokes, marks and cancels. -/
theorem afterDeleteResource_eq (hlock : lockRecoveryResource db resourceId = .ok ())
    (hget : db.resources.get? resourceId = some current) (now : Nat) :
    ∃ requestedAt logs, afterDeleteResource db resourceId now =
      { cancelDeletionWork { (revokeResourceAttachments db [resourceId]).1 with
          resources := markResources db.resources (fun r => r.id = resourceId) requestedAt }
          (resourceScope current) now with auditLogs := logs } := by
  obtain ⟨-, rfl⟩ := Keyed.get?_eq_some.1 hget
  have hok : ∃ requestedAt logs row, deleteResource db current.id now = .ok
      ({ cancelDeletionWork { (revokeResourceAttachments db [current.id]).1 with
          resources := markResources db.resources (fun r => r.id = current.id) requestedAt }
          (resourceScope current) now with auditLogs := logs }, row) := by
    unfold deleteResource
    rw [hlock, hget]
    exact ⟨_, _, _, rfl⟩
  obtain ⟨requestedAt, logs, row, hok⟩ := hok
  refine ⟨requestedAt, logs, ?_⟩
  unfold afterDeleteResource
  rw [hok]

/-- A deletion that is refused, or finds no resource, changes nothing. -/
theorem afterDeleteResource_refused
    (h : ¬ (lockRecoveryResource db resourceId = .ok () ∧ (db.resources.get? resourceId).isSome = true)) (now : Nat) :
    afterDeleteResource db resourceId now = db := by
  unfold afterDeleteResource deleteResource
  cases hlock : lockRecoveryResource db resourceId with
  | error e => rfl
  | ok u =>
    cases hget : db.resources.get? resourceId with
    | none => rfl
    | some current => exact absurd ⟨hlock, by rw [hget]; rfl⟩ h

/-- **A deletion keeps to its resource exactly when nothing runs in the project of the resource and each
attachment owns the names it injects**; a deletion that is refused changes nothing. -/
theorem deletion_confined_iff (db : Database) (resourceId : String) (now : Nat) :
    (∀ current, lockRecoveryResource db resourceId = .ok () → db.resources.get? resourceId = some current →
      (Confined db (afterDeleteResource db resourceId now) resourceId ↔ Separate db current)) ∧
    (¬ (lockRecoveryResource db resourceId = .ok () ∧ (db.resources.get? resourceId).isSome = true) →
      afterDeleteResource db resourceId now = db) := by
  refine ⟨fun current hlock hget => ?_, fun h => afterDeleteResource_refused h now⟩
  obtain ⟨requestedAt, logs, hafter⟩ := afterDeleteResource_eq hlock hget now
  obtain ⟨-, rfl⟩ := Keyed.get?_eq_some.1 hget
  rw [hafter]
  constructor
  · intro h
    exact ⟨⟨(cancelled_deployments_iff _ current now).1 h.deployments,
      (cancelled_jobs_iff _ current now).1 h.workflowJobs⟩, (revoked_services_iff db current.id).1 h.services⟩
  · intro h
    exact
      { deployments := (cancelled_deployments_iff _ current now).2 h.idle.deployments
        projects := rfl
        resources := marked_resources db.resources current.id requestedAt
        attachments := Keyed.select_filter fun a _ hne => by simpa using hne
        environment := revoked_environment db current.id
        workflowJobs := (cancelled_jobs_iff _ current now).2 h.idle.jobs
        services := (revoked_services_iff db current.id).2 h.specs }

namespace Shop

def reference : SecretKeyRef := ⟨"shop-db", "DATABASE_URL"⟩

def replicaReference : SecretKeyRef := ⟨"shop-replica", "DATABASE_URL"⟩

def resource (id : String) : Resource := ⟨id, "shop", "postgresql", "READY", none⟩

/-- The entry as the column returns it: shorter names come first. -/
def storedEntry (reference : SecretKeyRef) : Json :=
  .obj [("name", .str "DATABASE_URL"), ("valueFrom",
    .obj [("secretKeyRef", .obj [("key", .str reference.key), ("name", .str reference.name)])])]

def specWith (entries : List Json) : Record := ⟨[("secretEnv", .arr entries)], by simp⟩

def attachment (resourceId : String) (reference : SecretKeyRef) : Attachment :=
  ⟨resourceId, "web", none, [("DATABASE_URL", reference)]⟩

def deployment (status : String) : Deployment :=
  ⟨"d1", "web", "shop", status, none, none, none, none, none, none⟩

/-- One project with a database and a replica, both attached to its only service under one name. -/
def shop (entry : SecretKeyRef) (deploymentStatus : String) : Database where
  projects := ⟨[⟨"shop", "org", "ACTIVE", none⟩], by decide⟩
  resources := ⟨[resource "db", resource "replica"], by decide⟩
  services := ⟨[⟨"web", "shop", "ACTIVE", none, specWith [storedEntry entry]⟩], by simp⟩
  attachments := ⟨[attachment "db" reference, attachment "replica" replicaReference], by decide⟩
  environment := Keyed.empty
  secretValues := Keyed.empty
  deployments := ⟨[deployment deploymentStatus], by simp⟩
  workflowJobs := Keyed.empty
  recoveryPins := []
  auditLogs := []

theorem storedEntry_injected (reference : SecretKeyRef) :
    IsSecretEnvEntry "DATABASE_URL" reference (storedEntry reference) :=
  ⟨_, _, ⟨_, rfl, .swap _ _ _⟩, ⟨_, rfl, .refl _⟩, ⟨_, rfl, .refl _⟩⟩

theorem shop_separate : Separate (shop reference "READY") (resource "db") := by
  have hterminal : "READY" ∈ terminalDeploymentStatuses := by decide +kernel
  refine ⟨⟨fun d hd _ => ?_, fun j hj => absurd hj (by simp [shop, Keyed.empty])⟩, ?_⟩
  · obtain rfl : d = deployment "READY" := by simpa [shop] using hd
    exact hterminal
  · intro a ha hresource _ s hs _ entries hentries
    obtain rfl : a = attachment "db" reference := by
      rcases List.mem_cons.1 ha with rfl | ha
      · rfl
      · obtain rfl := List.mem_singleton.1 ha
        exact absurd hresource (by decide)
    obtain rfl := List.mem_singleton.1 hs
    obtain rfl : [storedEntry reference] = entries := Option.some.inj hentries
    refine ⟨fun entry hentry _ => ?_, fun m hm hne => ?_, fun entry hentry hname => ?_⟩
    · rw [List.mem_singleton.1 hentry]
      exact ⟨_, List.mem_singleton_self _, storedEntry_injected reference⟩
    · obtain rfl := List.mem_singleton.1 hm
      exact absurd rfl hne
    · obtain rfl := List.mem_singleton.1 hentry
      exact absurd (List.mem_singleton_self _) hname

end Shop

theorem deletion_confined_shop :
    Confined (Shop.shop Shop.reference "READY")
      (afterDeleteResource (Shop.shop Shop.reference "READY") "db" 5) "db" :=
  ((deletion_confined_iff (Shop.shop Shop.reference "READY") "db" 5).1 (Shop.resource "db") rfl rfl).2
    Shop.shop_separate

/-- The running deployment of the project is cancelled, and the entry of the replica goes too. -/
theorem deletion_cancels_project :
    (afterDeleteResource (Shop.shop Shop.replicaReference "BUILDING") "db" 5).deployments.rows.map
        Deployment.status = ["CANCELLED"] ∧
      ((afterDeleteResource (Shop.shop Shop.replicaReference "BUILDING") "db" 5).services.rows.map fun s =>
        (secretEnvOf s.desiredSpec).map List.length) = [some 0] ∧
      ¬ Confined (Shop.shop Shop.replicaReference "BUILDING")
        (afterDeleteResource (Shop.shop Shop.replicaReference "BUILDING") "db" 5) "db" := by
  have hcancelled : (afterDeleteResource (Shop.shop Shop.replicaReference "BUILDING") "db" 5).deployments.rows.map
      Deployment.status = ["CANCELLED"] := by decide +kernel
  refine ⟨hcancelled, by decide +kernel, fun h => ?_⟩
  rw [h.deployments] at hcancelled
  exact absurd hcancelled (by decide)

end RaibitServer.Resources
