import Aerosuite.Scale.World

/-! The weight files of two nodes, once the master has persisted its own and the backup has synced
or restored those that it has.  Every request succeeds.  Up to surrounding white space the common
backends then have the content of the master. -/

namespace Aerosuite.Scale

open Pool Program

/-- A directory of text files, with their names in the order in which they are listed. -/
structure WeightsDir where
  names : List String
  content : String → Option String
  nodup : names.Nodup
  mem_names : ∀ name, name ∈ names ↔ (content name).isSome

theorem WeightsDir.content_of_mem (d : WeightsDir) {name : String} (h : name ∈ d.names) :
    ∃ content, d.content name = some content :=
  Option.isSome_iff_exists.mp ((d.mem_names name).mp h)

def WeightsDir.write (d : WeightsDir) (name value : String) : WeightsDir where
  names := if name ∈ d.names then d.names else name :: d.names
  content := Function.update d.content name (some value)
  nodup := by
    split
    · exact d.nodup
    · next h => exact d.nodup.cons h
  mem_names other := by
    by_cases heq : other = name
    · subst heq
      split <;> simp [*]
    · rw [Function.update_of_ne heq, ← d.mem_names]
      split
      · rfl
      · simp [heq]

/-- What the programs of a node work on: its directory, and Redis. -/
abbrev NodeFiles := WeightsDir × Redis ℕ

/-- The operations of a node, which all succeed.  A file that does not exist cannot be read. -/
def onFiles : (e : Eff) → NodeFiles → e.Reply × NodeFiles
  | .redis c, s => (.ok (exec c s.2).1, s.1, (exec c s.2).2)
  | .readDir, s => (.ok ⟨s.1.names, none⟩, s)
  | .readFile name, s =>
    match s.1.content name with
    | some content => (.ok content, s)
    | none => (.error "No such file or directory", s)
  | .writeFile name value, s => (.ok (), s.1.write name value, s.2)
  | e, s => (okReply e, s)

/-- Redis after the master persisted its files. -/
def persisted (master : WeightsDir) (db : Redis ℕ) (now : ℕ) : Redis ℕ :=
  ((persist now).run onFiles (master, db)).2.2

/-- The files of a node after `sync_from_redis`. -/
def syncedDir (d : WeightsDir) (db : Redis ℕ) : WeightsDir :=
  (syncFromRedis.run onFiles (d, db)).2.1

/-- The files of a node after `restore_from_redis`. -/
def restoredDir (d : WeightsDir) (db : Redis ℕ) : WeightsDir :=
  (restoreFromRedis.run onFiles (d, db)).2.1

section Loops

variable {d : WeightsDir} {db : Redis ℕ} {name ip_str : String} {names : List String}

theorem trimText_trimText (s : String) : trimText (trimText s) = trimText s := by
  unfold trimText
  rw [String.toList_ofList, Text.trim_trim]

theorem WeightsDir.names_write (h : name ∈ d.names) (value : String) :
    (d.write name value).names = d.names := if_pos h

theorem run_andThen {α β : Type} {p : Daemon (Except String α)}
    {f : α → Daemon (Except String β)} {s s' : NodeFiles} {a : α}
    (h : p.run onFiles s = (.ok a, s')) : (andThen p f).run onFiles s = (f a).run onFiles s' := by
  rw [andThen, run_bind, h]

theorem run_persistFile {content : String} (h : d.content name = some content) :
    (persistFile name ip_str).run onFiles (d, db) =
      (.ok (), d, db.set (.backendWeight ip_str) (trimText content)) := by
  simp [persistFile, onFiles, h, context, exec]

theorem run_forWeightFiles_skip {body : String → String → Daemon (Except String Unit)}
    (h : weightFileIp name = none) :
    forWeightFiles none body (name :: names) = forWeightFiles none body names := by
  rw [forWeightFiles, h]

theorem run_forWeightFiles_cons {body : String → String → Daemon (Except String Unit)}
    {s s' : NodeFiles} (h : weightFileIp name = some ip_str)
    (hbody : (body name ip_str).run onFiles s = (.ok (), s')) :
    (forWeightFiles none body (name :: names)).run onFiles s =
      (forWeightFiles none body names).run onFiles s' := by
  rw [forWeightFiles, h]
  exact run_andThen hbody

theorem weightName_injective : Function.Injective weightName := by
  intro ip ip' h
  have hip := weightFileIp_iff.mpr (Eq.refl (weightName ip))
  rw [h, weightFileIp_iff.mpr rfl] at hip
  exact (Option.some.inj hip).symm

theorem ne_weightName (h : weightFileIp name = none) (ip_str : String) :
    weightName ip_str ≠ name := by
  rintro rfl
  rw [weightFileIp_iff.mpr rfl] at h
  cases h

theorem run_persistFiles (d : WeightsDir) (db : Redis ℕ)
    (hnames : ∀ name ∈ names, name ∈ d.names) :
    ∃ db', (forWeightFiles none persistFile names).run onFiles (d, db) = (.ok (), d, db') ∧
      ∀ ip_str, db'.strings (.backendWeight ip_str) =
        if weightName ip_str ∈ names then (d.content (weightName ip_str)).map trimText
        else db.strings (.backendWeight ip_str) := by
  induction names generalizing db with
  | nil => exact ⟨db, rfl, fun ip_str => by simp⟩
  | cons name names ih =>
    have hrest : ∀ name ∈ names, name ∈ d.names := fun n hn => hnames n (List.mem_cons_of_mem _ hn)
    cases hip : weightFileIp name with
    | none =>
      obtain ⟨db', hrun, hkeys⟩ := ih db hrest
      rw [run_forWeightFiles_skip hip]
      refine ⟨db', hrun, fun ip_str => ?_⟩
      rw [hkeys]
      simp only [List.mem_cons, ne_weightName hip ip_str, false_or]
    | some ip =>
      obtain rfl := weightFileIp_iff.mp hip
      obtain ⟨content, hcontent⟩ := d.content_of_mem (hnames _ List.mem_cons_self)
      obtain ⟨db', hrun, hkeys⟩ := ih (db.set (.backendWeight ip) (trimText content)) hrest
      rw [run_forWeightFiles_cons hip (run_persistFile hcontent)]
      refine ⟨db', hrun, fun ip_str => ?_⟩
      rw [hkeys]
      by_cases heq : ip_str = ip
      · subst heq
        simp [hcontent, Redis.set]
      · have hne : weightName ip_str ≠ weightName ip := fun h => heq (weightName_injective h)
        simp [hne, heq, Redis.set]

/-- The weight keys after the master persisted its files. -/
theorem persisted_key (master : WeightsDir) (db : Redis ℕ) (now : ℕ) (ip_str : String) :
    (persisted master db now).strings (.backendWeight ip_str) =
      match master.content (weightName ip_str) with
      | some content => some (trimText content)
      | none => db.strings (.backendWeight ip_str) := by
  obtain ⟨db', hrun, hkeys⟩ := run_persistFiles master db fun name h => h
  have hlist : (Scale.context "Cannot read weights dir" (eff .readDir)).run onFiles (master, db) =
      (.ok ⟨master.names, none⟩, master, db) := rfl
  rw [persisted, persist, run_andThen hlist, run_andThen hrun]
  show Function.update db'.strings .backendWeightsTs (some (toString now))
    (.backendWeight ip_str) = _
  rw [Function.update_of_ne (by simp), hkeys]
  simp only [master.mem_names]
  cases master.content (weightName ip_str) <;> rfl

/-- The loop gives each weight file the content `f`, which depends on the weight key of its address
and on the content before. -/
def Rewrites (body : String → String → Daemon (Except String Unit))
    (f : Option String → String → String) : Prop :=
  ∀ d db ip_str content, d.content (weightName ip_str) = some content →
    ∃ d', (body (weightName ip_str) ip_str).run onFiles (d, db) = (.ok (), d', db) ∧
      d'.names = d.names ∧ d'.content = Function.update d.content (weightName ip_str)
        (some (f (db.strings (.backendWeight ip_str)) content))

/-- The content of a file after the loop. -/
def rewritten (f : Option String → String → String) (db : Redis ℕ) (name content : String) :
    String :=
  match weightFileIp name with
  | some ip_str => f (db.strings (.backendWeight ip_str)) content
  | none => content

theorem Rewrites.run {body : String → String → Daemon (Except String Unit)}
    {f : Option String → String → String} (hbody : Rewrites body f) (db : Redis ℕ)
    (hnodup : names.Nodup) (hnames : ∀ name ∈ names, name ∈ d.names) :
    ∃ d', (forWeightFiles none body names).run onFiles (d, db) = (.ok (), d', db) ∧
      ∀ name, d'.content name =
        if name ∈ names then (d.content name).map (rewritten f db name) else d.content name := by
  induction names generalizing d with
  | nil => exact ⟨d, rfl, fun name => by simp⟩
  | cons name names ih =>
    obtain ⟨hnot, hrest⟩ := List.nodup_cons.mp hnodup
    have hlater : ∀ name ∈ names, name ∈ d.names := fun n hn =>
      hnames n (List.mem_cons_of_mem _ hn)
    cases hip : weightFileIp name with
    | none =>
      obtain ⟨d', hrun, hcontent⟩ := ih hrest hlater
      rw [run_forWeightFiles_skip hip]
      refine ⟨d', hrun, fun other => ?_⟩
      rw [hcontent]
      by_cases heq : other = name
      · subst heq
        have hkept : rewritten f db other = id := funext fun c => by rw [rewritten, hip]; rfl
        simp [hnot, hkept]
      · simp [heq]
    | some ip =>
      obtain rfl := weightFileIp_iff.mp hip
      obtain ⟨content, hcontent⟩ := d.content_of_mem (hnames _ List.mem_cons_self)
      obtain ⟨d₁, hrun₁, hnames₁, hcontent₁⟩ := hbody d db ip content hcontent
      obtain ⟨d', hrun, hcontent'⟩ := ih (d := d₁) hrest (hnames₁ ▸ hlater)
      rw [run_forWeightFiles_cons hip hrun₁]
      refine ⟨d', hrun, fun other => ?_⟩
      rw [hcontent', hcontent₁]
      by_cases heq : other = weightName ip
      · subst heq
        simp [hnot, rewritten, hip, hcontent]
      · simp [heq]

/-- What `sync_from_redis` leaves in a file. -/
def syncedContent (stored : Option String) (content : String) : String :=
  match stored with
  | some value => if trimText content = trimText value then content else trimText value
  | none => content

/-- What `restore_from_redis` leaves in a file. -/
def restoredContent (stored : Option String) (content : String) : String :=
  (stored.map trimText).getD content

theorem syncFile_rewrites : Rewrites syncFile syncedContent := by
  intro d db ip_str content hcontent
  cases hstored : db.strings (.backendWeight ip_str) with
  | none =>
    refine ⟨d, ?_, rfl, ?_⟩
    · simp [syncFile, onFiles, exec, hstored]
    · simp [syncedContent, ← hcontent]
  | some value =>
    by_cases hsame : trimText content = trimText value
    · refine ⟨d, ?_, rfl, ?_⟩
      · simp [syncFile, onFiles, exec, hstored, hcontent, hsame, Except.toOption]
      · simp [syncedContent, hsame, ← hcontent]
    · refine ⟨d.write (weightName ip_str) (trimText value), ?_, ?_, ?_⟩
      · simp [syncFile, onFiles, exec, hstored, hcontent, hsame, Except.toOption, context]
      · exact WeightsDir.names_write ((d.mem_names _).mpr (by simp [hcontent])) _
      · simp [WeightsDir.write, syncedContent, hsame]

theorem restoreFile_rewrites : Rewrites restoreFile restoredContent := by
  intro d db ip_str content hcontent
  cases hstored : db.strings (.backendWeight ip_str) with
  | none =>
    refine ⟨d, ?_, rfl, ?_⟩
    · simp [restoreFile, onFiles, exec, hstored]
    · simp [restoredContent, ← hcontent]
  | some value =>
    refine ⟨d.write (weightName ip_str) (trimText value), ?_, ?_, ?_⟩
    · simp [restoreFile, onFiles, exec, hstored, context]
    · exact WeightsDir.names_write ((d.mem_names _).mpr (by simp [hcontent])) _
    · simp [WeightsDir.write, restoredContent]

theorem map_listed {f : String → String} (name : String) :
    (if name ∈ d.names then (d.content name).map f else d.content name) =
      (d.content name).map f := by
  simp only [d.mem_names]
  cases d.content name <;> rfl

theorem syncedDir_content (d : WeightsDir) (db : Redis ℕ) (name : String) :
    (syncedDir d db).content name = (d.content name).map (rewritten syncedContent db name) := by
  obtain ⟨d', hrun, hcontent⟩ := syncFile_rewrites.run db d.nodup fun name h => h
  have hlist : (Scale.context "Cannot read weights dir" (eff .readDir)).run onFiles (d, db) =
      (.ok ⟨d.names, none⟩, d, db) := rfl
  rw [syncedDir, syncFromRedis, run_andThen hlist, hrun, ← map_listed, ← hcontent]

theorem restoredDir_content (d : WeightsDir) (db : Redis ℕ) (name : String) :
    (restoredDir d db).content name = (d.content name).map (rewritten restoredContent db name) := by
  obtain ⟨d', hrun, hcontent⟩ := restoreFile_rewrites.run db d.nodup fun name h => h
  have hlist : (eff .readDir).run onFiles (d, db) = (.ok ⟨d.names, none⟩, d, db) := rfl
  rw [restoredDir, restoreFromRedis, run_andThen hlist, hrun, ← map_listed, ← hcontent]

/-- Where each file agrees with its weight key, a sync writes nothing. -/
theorem settled_loop (d : WeightsDir) (db : Redis ℕ) (hnames : ∀ name ∈ names, name ∈ d.names)
    (h : ∀ ip_str value content, db.strings (.backendWeight ip_str) = some value →
      d.content (weightName ip_str) = some content → trimText content = trimText value) :
    ∀ name value, .writeFile name value ∉
      (forWeightFiles none syncFile names).operations onFiles (d, db) := by
  induction names with
  | nil => exact fun name value => List.not_mem_nil
  | cons name names ih =>
    have hlater : ∀ name ∈ names, name ∈ d.names := fun n hn =>
      hnames n (List.mem_cons_of_mem _ hn)
    cases hip : weightFileIp name with
    | none =>
      rw [run_forWeightFiles_skip hip]
      exact ih hlater
    | some ip =>
      obtain rfl := weightFileIp_iff.mp hip
      obtain ⟨content, hcontent⟩ := d.content_of_mem (hnames _ List.mem_cons_self)
      intro name value
      rw [forWeightFiles, hip]
      dsimp only [andThen]
      rw [operations_bind]
      cases hstored : db.strings (.backendWeight ip) with
      | none => simpa [syncFile, onFiles, exec, hstored] using ih hlater name value
      | some stored =>
        have hsame := h ip stored content hstored hcontent
        simpa [syncFile, onFiles, exec, hstored, hcontent, Except.toOption, hsame]
          using ih hlater name value

theorem settled_sync
    (h : ∀ ip_str value content, db.strings (.backendWeight ip_str) = some value →
      d.content (weightName ip_str) = some content → trimText content = trimText value)
    (name value : String) :
    .writeFile name value ∉ syncFromRedis.operations onFiles (d, db) := by
  have hloop := settled_loop d db (fun name h => h) h name value
  simpa [syncFromRedis, andThen, context, onFiles] using hloop

end Loops

/-- The files `after` of the backup hold what the files of the master do, where `db` is Redis before
the master persisted them and `db'` Redis after. -/
structure Replicated (master backup : WeightsDir) (db : Redis ℕ) (after : WeightsDir)
    (db' : Redis ℕ) : Prop where
  common : ∀ ip_str content, master.content (weightName ip_str) = some content →
    backup.content (weightName ip_str) ≠ none →
      ∃ content', after.content (weightName ip_str) = some content' ∧
        trimText content' = trimText content
  stored : ∀ ip_str value, master.content (weightName ip_str) = none →
    backup.content (weightName ip_str) ≠ none → db.strings (.backendWeight ip_str) = some value →
      ∃ content', after.content (weightName ip_str) = some content' ∧
        trimText content' = trimText value
  unstored : ∀ ip_str, master.content (weightName ip_str) = none →
    db.strings (.backendWeight ip_str) = none →
      after.content (weightName ip_str) = backup.content (weightName ip_str)
  other : ∀ name, weightFileIp name = none → after.content name = backup.content name
  absent : ∀ name, backup.content name = none → after.content name = none
  settled : ∀ d : WeightsDir, d.content = after.content →
    ∀ name value, .writeFile name value ∉ syncFromRedis.operations onFiles (d, db')
  states : ∀ ip_str content content', master.content (weightName ip_str) = some content →
    after.content (weightName ip_str) = some content' →
      BackendState.fromWeightStr content' = BackendState.fromWeightStr content

section Replicated

variable {master backup after : WeightsDir} {db : Redis ℕ} {now : ℕ}
  {f : Option String → String → String}

theorem fromWeightStr_congr {content content' : String} (h : trimText content = trimText content') :
    BackendState.fromWeightStr content = BackendState.fromWeightStr content' := by
  unfold trimText at h
  simp only [BackendState.fromWeightStr, h]

theorem rewritten_weightName (ip_str content : String) :
    rewritten f db (weightName ip_str) content =
      f (db.strings (.backendWeight ip_str)) content := by
  rw [rewritten, weightFileIp_iff.mpr rfl]

section Rewritten

variable {ip_str : String} (hafter : ∀ name, after.content name =
    (backup.content name).map (rewritten f (persisted master db now) name))
  (hsome : ∀ value content, trimText (f (some value) content) = trimText value)

include hafter

theorem exists_content (hbackup : backup.content (weightName ip_str) ≠ none) :
    ∃ content, after.content (weightName ip_str) = some content := by
  obtain ⟨content, hcontent⟩ := Option.ne_none_iff_exists'.mp hbackup
  exact ⟨_, by rw [hafter, hcontent, Option.map_some]⟩

include hsome

theorem content_of_key {value content : String}
    (hvalue : (persisted master db now).strings (.backendWeight ip_str) = some value)
    (hcontent : after.content (weightName ip_str) = some content) :
    trimText content = trimText value := by
  rw [hafter] at hcontent
  obtain ⟨old, -, rfl⟩ := Option.map_eq_some_iff.mp hcontent
  rw [rewritten_weightName, hvalue, hsome]

theorem content_of_master {content content' : String}
    (hmaster : master.content (weightName ip_str) = some content)
    (hcontent : after.content (weightName ip_str) = some content') :
    trimText content' = trimText content := by
  have hvalue : (persisted master db now).strings (.backendWeight ip_str) =
      some (trimText content) := by
    rw [persisted_key, hmaster]
  rw [content_of_key hafter hsome hvalue hcontent, trimText_trimText]

/-- A loop that takes over the weight key, up to white space, replicates the files. -/
theorem replicated_of_rewritten (hnone : ∀ content, f none content = content) :
    Replicated master backup db after (persisted master db now) := by
  constructor
  · intro ip_str content hmaster hbackup
    obtain ⟨content', hcontent⟩ := exists_content hafter hbackup
    exact ⟨content', hcontent, content_of_master hafter hsome hmaster hcontent⟩
  · intro ip_str value hmaster hbackup hvalue
    obtain ⟨content, hcontent⟩ := exists_content hafter hbackup
    have hkey : (persisted master db now).strings (.backendWeight ip_str) = some value := by
      rw [persisted_key, hmaster, hvalue]
    exact ⟨content, hcontent, content_of_key hafter hsome hkey hcontent⟩
  · intro ip_str hmaster hvalue
    have hkey : (persisted master db now).strings (.backendWeight ip_str) = none := by
      rw [persisted_key, hmaster, hvalue]
    rw [hafter]
    cases backup.content (weightName ip_str) with
    | none => rfl
    | some content => rw [Option.map_some, rewritten_weightName, hkey, hnone]
  · intro name hname
    rw [hafter]
    cases backup.content name with
    | none => rfl
    | some content => rw [Option.map_some, rewritten, hname]
  · intro name hname
    rw [hafter, hname, Option.map_none]
  · intro d hd
    exact settled_sync fun ip_str value content hvalue hcontent =>
      content_of_key hafter hsome hvalue (by rw [← hd, hcontent])
  · intro ip_str content content' hmaster hcontent
    exact fromWeightStr_congr (content_of_master hafter hsome hmaster hcontent)

end Rewritten

/-- A sync and a restore both replicate the files that the master has persisted. -/
theorem weights_replicated (master backup : WeightsDir) (db : Redis ℕ) (now : ℕ) :
    Replicated master backup db (syncedDir backup (persisted master db now))
        (persisted master db now) ∧
      Replicated master backup db (restoredDir backup (persisted master db now))
        (persisted master db now) := by
  constructor
  · refine replicated_of_rewritten (syncedDir_content _ _) (fun value content => ?_) fun _ => rfl
    unfold syncedContent
    dsimp only
    split
    · assumption
    · exact trimText_trimText value
  · refine replicated_of_rewritten (restoredDir_content _ _) (fun value content => ?_) fun _ => rfl
    exact trimText_trimText value

end Replicated

/-- A directory with one file. -/
def dirOf (name content : String) : WeightsDir where
  names := [name]
  content := Function.update (fun _ => none) name (some content)
  nodup := List.nodup_singleton name
  mem_names other := by
    by_cases heq : other = name
    · simp [heq]
    · simp [heq]

/-- A stored value with white space around it is written without. -/
theorem stored_value_trimmed : ¬ ∀ (master backup : WeightsDir) (db : Redis ℕ) now ip_str value,
    master.content (weightName ip_str) = none → backup.content (weightName ip_str) ≠ none →
      db.strings (.backendWeight ip_str) = some value →
        (syncedDir backup (persisted master db now)).content (weightName ip_str) = some value ∨
          (syncedDir backup (persisted master db now)).content (weightName ip_str) =
            backup.content (weightName ip_str) := by
  intro h
  have hmaster : (dirOf "keepalived.conf" "").content (weightName "10.0.0.20") = none := by decide
  have hbackup : (dirOf (weightName "10.0.0.20") "-1").content (weightName "10.0.0.20") =
      some "-1" := by decide
  have hstored : (Redis.empty.set (.backendWeight "10.0.0.20") "0\n" : Redis ℕ).strings
      (.backendWeight "10.0.0.20") = some "0\n" := by decide
  have hset := h _ _ _ 0 "10.0.0.20" "0\n" hmaster (by rw [hbackup]; simp) hstored
  have htrim : trimText "0\n" = "0" := by
    unfold trimText
    decide +kernel
  have hdisk : trimText "-1" ≠ "0" := by
    unfold trimText
    decide +kernel
  rw [syncedDir_content, hbackup, Option.map_some, rewritten_weightName, persisted_key, hmaster,
    hstored, syncedContent] at hset
  simp [htrim, hdisk] at hset

end Aerosuite.Scale
