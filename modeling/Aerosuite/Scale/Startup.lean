import Aerosuite.Scale.WeightSync

/-! The weight files after a start of the daemon, when some reads from Redis fail.  A list of leases
that cannot be read counts as an empty one, and a fresh state is restored as it was persisted. -/

namespace Aerosuite.Scale

open Pool Program

/-- A start of the daemon: the listing of the weight files, the true content of Redis, the commands
that fail, and the clocks. -/
structure Boot where
  net : SlotNetwork
  dir : Except String DirListing
  db : Redis ℕ
  failing : Cmd ℕ → Option String
  now : ℕ
  lease_clock : ℕ → ℕ
  ttl_secs : ℕ

namespace Boot

/-- The reply to a Redis command. -/
def redisReply (boot : Boot) (c : Cmd ℕ) : Except String c.Reply :=
  match boot.failing c with
  | some e => .error e
  | none => .ok (exec c boot.db).1

/-- The replies of a start in which `writes` tells what becomes of the files that are written. -/
def reply (boot : Boot) (writes : String → String → Except String Unit) : (e : Eff) → e.Reply
  | .redis c => boot.redisReply c
  | .readDir => boot.dir
  | .writeFile name value => writes name value
  | e => okReply e

/-- The operations of `weight_sync::init`. -/
def ops (boot : Boot) (writes : String → String → Except String Unit) : List Eff :=
  performed (boot.reply writes) (initWeights boot.net boot.now boot.lease_clock boot.ttl_secs)

/-- The slot holds a lease in Redis that has not expired. -/
def Live (boot : Boot) (slot : ℕ) : Prop :=
  ∃ expires_ms, boot.db.score .leases (slotStr slot) = some expires_ms ∧
    boot.lease_clock slot < expires_ms

/-- No live slot is disabled, and a list of leases that cannot be read leaves the files alone. -/
def KeepsPool (boot : Boot) : Prop :=
  ∀ writes,
    (∀ slot < 2 ^ 32, boot.Live slot →
      .writeFile (weightFile (boot.net.ipForSlot slot)) WEIGHT_DISABLED ∉ boot.ops writes) ∧
    (.redis (.zrangeWithScores .leases) ∈ boot.ops writes →
      (boot.failing (.zrangeWithScores .leases)).isSome →
        ∀ name value, .writeFile name value ∉ boot.ops writes)

/-- The timestamp that is read shows a fresh state. -/
def fresh (boot : Boot) : Bool :=
  isFresh ((boot.redisReply (.get .backendWeightsTs)).toOption.getD none) boot.now boot.ttl_secs

/-- The names of the weight files. -/
def names (boot : Boot) : List String :=
  match boot.dir with
  | .ok dir => dir.names
  | .error _ => []

end Boot

section Performed

variable {ρ : (e : Eff) → e.Reply} {e : Eff}

theorem mem_performed_context {α : Type} {text : String} {p : Daemon (Except String α)} :
    e ∈ performed ρ (context text p) ↔ e ∈ performed ρ p := by
  rw [context, performed_bind]
  cases (answering ρ p).2 <;> simp

theorem mem_performed_andThen {α β : Type} {p : Daemon (Except String α)}
    {f : α → Daemon (Except String β)} : e ∈ performed ρ (andThen p f) ↔
      e ∈ performed ρ p ∨ ∃ a, (answering ρ p).2 = .ok a ∧ e ∈ performed ρ (f a) := by
  rw [andThen, performed_bind, List.mem_append]
  cases (answering ρ p).2 <;> simp

/-- A loop over weight files performs operations of its bodies only. -/
theorem exists_of_mem_forWeightFiles {failure : Option String}
    {body : String → String → Daemon (Except String Unit)} {names : List String}
    (h : e ∈ performed ρ (forWeightFiles failure body names)) :
    ∃ name ∈ names, ∃ ip_str, weightFileIp name = some ip_str ∧
      e ∈ performed ρ (body name ip_str) := by
  induction names with
  | nil => cases failure <;> simp [forWeightFiles] at h
  | cons name names ih =>
    rw [forWeightFiles] at h
    split at h
    · obtain ⟨name', hmem, hbody⟩ := ih h
      exact ⟨name', List.mem_cons_of_mem _ hmem, hbody⟩
    · next ip_str hip =>
      rcases mem_performed_andThen.mp h with hbody | ⟨_, -, hrest⟩
      · exact ⟨name, List.mem_cons_self, ip_str, hip, hbody⟩
      · obtain ⟨name', hmem, hbody⟩ := ih hrest
        exact ⟨name', List.mem_cons_of_mem _ hmem, hbody⟩

/-- A loop over weight files none of whose bodies fails performs the operations of all. -/
theorem mem_forWeightFiles_of_ok {failure : Option String}
    {body : String → String → Daemon (Except String Unit)} {names : List String}
    {name ip_str : String}
    (hok : ∀ name ip_str, (answering ρ (body name ip_str)).2 = .ok ()) (hname : name ∈ names)
    (hip : weightFileIp name = some ip_str) (h : e ∈ performed ρ (body name ip_str)) :
    e ∈ performed ρ (forWeightFiles failure body names) := by
  induction names with
  | nil => cases hname
  | cons name' names ih =>
    rw [forWeightFiles]
    rcases List.mem_cons.mp hname with rfl | hname
    · simp only [hip]
      exact mem_performed_andThen.mpr (.inl h)
    · split
      · exact ih hname
      · exact mem_performed_andThen.mpr (.inr ⟨(), hok _ _, ih hname⟩)

theorem mem_performed_restoreFile {name ip_str : String} :
    e ∈ performed ρ (restoreFile name ip_str) ↔ e = .redis (.get (.backendWeight ip_str)) ∨
      ∃ val, ρ (.redis (.get (.backendWeight ip_str))) = .ok (some val) ∧
        e = .writeFile name (trimText val) := by
  simp only [restoreFile, perform_bind, performed_call, List.mem_cons]
  refine or_congr_right ?_
  rcases ρ (.redis (.get (.backendWeight ip_str))) with err | _ | val
  · simp
  · simp
  · simp [mem_performed_context, eff, perform]

theorem mem_performed_computeFile {live_ips : List Ipv4Addr} {name ip_str : String} :
    e ∈ performed ρ (computeFile live_ips name ip_str) ↔
      ∃ ip, Ipv4Addr.parse ip_str.toList = some ip ∧
        e = .writeFile name (if ip ∈ live_ips then WEIGHT_ACTIVE else WEIGHT_DISABLED) := by
  unfold computeFile
  cases Ipv4Addr.parse ip_str.toList with
  | none => simp
  | some ip => simp [mem_performed_context, eff, perform]

/-- When every file can be written, no body of the loops at the startup fails. -/
theorem restoreFile_ok (hwrite : ∀ name value, ρ (.writeFile name value) = .ok ())
    (name ip_str : String) :
    (answering ρ (restoreFile name ip_str)).2 = .ok () := by
  simp only [restoreFile, perform_bind, answering_call]
  rcases ρ (.redis (.get (.backendWeight ip_str))) with err | _ | val
  · rfl
  · rfl
  · simp [context, eff, perform, hwrite]

theorem computeFile_ok (hwrite : ∀ name value, ρ (.writeFile name value) = .ok ())
    (live_ips : List Ipv4Addr) (name ip_str : String) :
    (answering ρ (computeFile live_ips name ip_str)).2 = .ok () := by
  unfold computeFile
  cases Ipv4Addr.parse ip_str.toList with
  | none => rfl
  | some ip => simp [context, eff, perform, hwrite]

end Performed

namespace Boot

variable {boot : Boot} {writes : String → String → Except String Unit}

/-- The addresses of the live leases that the startup sees. -/
def liveIps (boot : Boot) (writes : String → String → Except String Unit) : List Ipv4Addr :=
  let lease_list := match (answering (boot.reply writes) (readLeases fun _ => none)).2 with
    | .ok (leases, _) => leases
    | .error _ => []
  (lease_list.filter fun l => !l.isExpired (boot.lease_clock l.slot)).map fun l =>
    boot.net.ipForSlot l.slot

theorem mem_liveIps_of_live {slot : ℕ} (h : boot.failing (.zrangeWithScores .leases) = none)
    (hslot : slot < 2 ^ 32) (hlive : boot.Live slot) :
    boot.net.ipForSlot slot ∈ boot.liveIps writes := by
  obtain ⟨expires_ms, hscore, hlt⟩ := hlive
  have hreply : boot.reply writes (.redis (.zrangeWithScores .leases)) =
      .ok (boot.db.sets .leases).toList := by
    simp [reply, redisReply, h, exec]
  have hfold := exec_readLease_fold (exec_answering (boot.reply writes)
    (foldEach readLease ([], fun _ => none) (boot.db.sets .leases).toList))
  rw [List.map_nil, List.nil_append] at hfold
  have hentry : (slot, expires_ms) ∈ (boot.db.sets .leases).toList.map
      fun entry => (slotNumber entry.1, entry.2) := by
    refine List.mem_map.mpr ⟨(slotStr slot, expires_ms), SortedSet.mem_toList.mpr hscore, ?_⟩
    rw [slotNumber_slotStr hslot]
  rw [← hfold] at hentry
  obtain ⟨l, hl, heq⟩ := List.mem_map.mp hentry
  obtain ⟨rfl, rfl⟩ := Prod.mk.inj heq
  have hsorted := (List.mem_insertionSort fun a b : SlotLease => a.slot ≤ b.slot).mpr hl
  simp only [liveIps, readLeases, context, andThen, eff, perform, call_bind, ret_bind, pure_eq_ret,
    answering_call, hreply, answering_bind, answering_ret]
  refine List.mem_map.mpr ⟨l, List.mem_filter.mpr ⟨hsorted, ?_⟩, rfl⟩
  simpa [SlotLease.isExpired] using hlt

theorem mem_ops {e : Eff} : e ∈ boot.ops writes ↔ e = .redis (.get .backendWeightsTs) ∨
    if boot.fresh then e ∈ performed (boot.reply writes) restoreFromRedis
    else e ∈ performed (boot.reply writes) (computeFromLeases boot.net boot.lease_clock) := by
  have hts : boot.reply writes (.redis (.get .backendWeightsTs)) =
    boot.redisReply (.get .backendWeightsTs) := rfl
  rw [ops, initWeights, perform_bind, performed_call, List.mem_cons, hts]
  refine or_congr_right ?_
  unfold fresh
  cases boot.redisReply (.get .backendWeightsTs) with
  | ok ts => cases hfresh : isFresh ts boot.now boot.ttl_secs <;> simp [Except.toOption, hfresh]
  | error e => cases hfresh : isFresh none boot.now boot.ttl_secs <;> simp [Except.toOption, hfresh]

/-- The value that the startup writes to the file of an address: the persisted one, or that of its
lease. -/
def Gives (boot : Boot) (writes : String → String → Except String Unit) (ip_str value : String) :
    Prop :=
  if boot.fresh then
    ∃ val, boot.redisReply (.get (.backendWeight ip_str)) = .ok (some val) ∧ value = trimText val
  else
    ∃ ip, Ipv4Addr.parse ip_str.toList = some ip ∧
      value = if ip ∈ boot.liveIps writes then WEIGHT_ACTIVE else WEIGHT_DISABLED

/-- The two strategies list the files after what they read before. -/
theorem writeFile_mem_ops_iff {name value : String} : .writeFile name value ∈ boot.ops writes ↔
    ∃ dir, boot.dir = .ok dir ∧
      .writeFile name value ∈ performed (boot.reply writes) (forWeightFiles dir.failure
        (if boot.fresh then restoreFile else computeFile (boot.liveIps writes)) dir.names) := by
  have hlist : ∀ body : String → String → Daemon (Except String Unit),
      .writeFile name value ∈ performed (boot.reply writes)
        (andThen (eff .readDir) fun dir => forWeightFiles dir.failure body dir.names) ↔
      ∃ dir, boot.dir = .ok dir ∧ .writeFile name value ∈
        performed (boot.reply writes) (forWeightFiles dir.failure body dir.names) := by
    intro body
    rw [mem_performed_andThen]
    simp [eff, perform, reply]
  have hleases : .writeFile name value ∉ performed (boot.reply writes)
    (readLeases fun _ => none) := by
    intro hmem
    obtain ⟨c, hc⟩ := readLeases_always.exec_op (exec_answering _ _) hmem
    cases hc
  rw [mem_ops, or_iff_right (by simp)]
  cases boot.fresh with
  | true => exact hlist restoreFile
  | false =>
    simp only [Bool.false_eq_true, if_false, computeFromLeases, performed_bind, List.mem_append,
      hleases, false_or]
    exact hlist _

theorem gives_of_writeFile {name value : String} (h : .writeFile name value ∈ boot.ops writes) :
    name ∈ boot.names ∧ ∃ ip_str, weightFileIp name = some ip_str ∧
      boot.Gives writes ip_str value := by
  obtain ⟨dir, hdir, hmem⟩ := writeFile_mem_ops_iff.mp h
  obtain ⟨name', hname', ip_str, hip, hbody⟩ := exists_of_mem_forWeightFiles hmem
  unfold names Gives
  rw [hdir]
  cases hfresh : boot.fresh with
  | true =>
    simp only [hfresh, if_true, mem_performed_restoreFile, reply, reduceCtorEq, false_or,
      Eff.writeFile.injEq] at hbody
    obtain ⟨val, hval, rfl, rfl⟩ := hbody
    exact ⟨hname', ip_str, hip, val, hval, rfl⟩
  | false =>
    simp only [hfresh, Bool.false_eq_true, if_false, mem_performed_computeFile,
      Eff.writeFile.injEq] at hbody
    obtain ⟨ip, hparse, rfl, rfl⟩ := hbody
    exact ⟨hname', ip_str, hip, ip, hparse, rfl⟩

/-- When every file can be written, each file gets its value. -/
theorem writeFile_of_gives {name ip_str value : String} (hname : name ∈ boot.names)
    (hip : weightFileIp name = some ip_str)
    (hgives : boot.Gives (fun _ _ => .ok ()) ip_str value) :
    .writeFile name value ∈ boot.ops fun _ _ => .ok () := by
  rw [writeFile_mem_ops_iff]
  unfold names at hname
  cases hdir : boot.dir with
  | error e => simp [hdir] at hname
  | ok dir =>
    rw [hdir] at hname
    refine ⟨dir, rfl, ?_⟩
    unfold Gives at hgives
    cases hfresh : boot.fresh with
    | true =>
      simp only [hfresh, if_true] at hgives ⊢
      obtain ⟨val, hval, rfl⟩ := hgives
      refine mem_forWeightFiles_of_ok (restoreFile_ok fun _ _ => rfl) hname hip ?_
      exact mem_performed_restoreFile.mpr (.inr ⟨val, hval, rfl⟩)
    | false =>
      simp only [hfresh, Bool.false_eq_true, if_false] at hgives ⊢
      obtain ⟨ip, hparse, rfl⟩ := hgives
      refine mem_forWeightFiles_of_ok (computeFile_ok (fun _ _ => rfl) _) hname hip ?_
      exact mem_performed_computeFile.mpr ⟨ip, hparse, rfl⟩

theorem zrange_mem_ops :
    .redis (.zrangeWithScores .leases) ∈ boot.ops writes ↔ boot.fresh = false := by
  rw [mem_ops, or_iff_right (by simp)]
  cases boot.fresh with
  | true =>
    simp only [if_true, Bool.true_eq_false, iff_false]
    intro hmem
    rcases mem_performed_andThen.mp hmem with hdir | ⟨dir, -, hfiles⟩
    · simp [eff, perform] at hdir
    · obtain ⟨name, -, ip_str, -, hbody⟩ := exists_of_mem_forWeightFiles hfiles
      simp [mem_performed_restoreFile] at hbody
  | false =>
    simp only [Bool.false_eq_true, if_false, iff_true, computeFromLeases, performed_bind,
      List.mem_append]
    refine .inl (mem_performed_andThen.mpr (.inl (mem_performed_context.mpr ?_)))
    simp [eff, perform]

/-- A restore keeps the pool when it restores no live backend as disabled. -/
theorem keepsPool_restored_iff (hfresh : boot.fresh = true) : boot.KeepsPool ↔
    ∀ slot < 2 ^ 32, boot.Live slot → weightFile (boot.net.ipForSlot slot) ∈ boot.names →
      ∀ val, boot.redisReply
          (.get (.backendWeight (String.ofList (boot.net.ipForSlot slot).display))) =
            .ok (some val) →
        trimText val ≠ WEIGHT_DISABLED := by
  constructor
  · intro h slot hslot hlive hname val hval hdisabled
    refine (h fun _ _ => .ok ()).1 slot hslot hlive ?_
    refine writeFile_of_gives hname (weightFileIp_weightFile _) ?_
    rw [Gives, if_pos hfresh]
    exact ⟨val, hval, hdisabled.symm⟩
  · intro h writes
    refine ⟨fun slot hslot hlive hmem => ?_, fun hread => ?_⟩
    · obtain ⟨hname, ip_str, hip, hgives⟩ := gives_of_writeFile hmem
      obtain rfl := Option.some.inj ((weightFileIp_weightFile _).symm.trans hip)
      rw [Gives, if_pos hfresh] at hgives
      obtain ⟨val, hval, hvalue⟩ := hgives
      exact h slot hslot hlive hname val hval hvalue.symm
    · rw [zrange_mem_ops, hfresh] at hread
      cases hread

/-- Weights computed from the leases keep the pool when the leases can be read. -/
theorem keepsPool_computed_iff (hfresh : boot.fresh = false) : boot.KeepsPool ↔
    boot.failing (.zrangeWithScores .leases) = none ∨
      ∀ name ∈ boot.names, weightIp name = none := by
  have hnot : ¬ boot.fresh = true := by simp [hfresh]
  constructor
  · intro h
    by_contra hcon
    simp only [not_or, not_forall, exists_prop] at hcon
    obtain ⟨hfails, name, hname, hparse⟩ := hcon
    obtain ⟨ip, hip⟩ := Option.ne_none_iff_exists'.mp hparse
    obtain ⟨ip_str, hstr, hparse⟩ := Option.bind_eq_some_iff.mp hip
    have hgives : boot.Gives (fun _ _ => .ok ()) ip_str
        (if ip ∈ boot.liveIps (fun _ _ => .ok ()) then WEIGHT_ACTIVE else WEIGHT_DISABLED) := by
      rw [Gives, if_neg hnot]
      exact ⟨ip, hparse, rfl⟩
    exact (h fun _ _ => .ok ()).2 (zrange_mem_ops.mpr hfresh)
      (Option.isSome_iff_ne_none.mpr hfails) name _ (writeFile_of_gives hname hstr hgives)
  · intro h writes
    refine ⟨fun slot hslot hlive hmem => ?_, fun _ hfails name value hmem => ?_⟩
    · obtain ⟨hname, ip_str, hip, hgives⟩ := gives_of_writeFile hmem
      obtain rfl := Option.some.inj ((weightFileIp_weightFile _).symm.trans hip)
      rw [Gives, if_neg hnot] at hgives
      obtain ⟨ip, hparse, hvalue⟩ := hgives
      rw [String.toList_ofList, parse_display (boot.net.ipForSlot_lt slot)] at hparse
      obtain rfl := Option.some.inj hparse
      rcases h with hreads | hnone
      · rw [if_pos (mem_liveIps_of_live hreads hslot hlive)] at hvalue
        exact absurd hvalue (by decide)
      · have hip := weightIp_weightFile (boot.net.ipForSlot_lt slot)
        exact absurd (hnone _ hname) (by simp [hip])
    · obtain ⟨hname, ip_str, hip, hgives⟩ := gives_of_writeFile hmem
      rw [Gives, if_neg hnot] at hgives
      obtain ⟨ip, hparse, -⟩ := hgives
      rcases h with hreads | hnone
      · simp [hreads] at hfails
      · have hnone := hnone name hname
        simp [weightIp, hip, hparse] at hnone

/-- The startup keeps the pool exactly when it restores no live backend as disabled, or can read the
leases from which it computes the weights. -/
theorem keepsPool_iff (boot : Boot) : boot.KeepsPool ↔
    if boot.fresh then
      ∀ slot < 2 ^ 32, boot.Live slot → weightFile (boot.net.ipForSlot slot) ∈ boot.names →
        ∀ val, boot.redisReply
            (.get (.backendWeight (String.ofList (boot.net.ipForSlot slot).display))) =
              .ok (some val) →
          trimText val ≠ WEIGHT_DISABLED
    else
      boot.failing (.zrangeWithScores .leases) = none ∨
        ∀ name ∈ boot.names, weightIp name = none := by
  cases hfresh : boot.fresh with
  | true =>
    simp only [if_true]
    exact keepsPool_restored_iff hfresh
  | false =>
    simp only [Bool.false_eq_true, if_false]
    exact keepsPool_computed_iff hfresh

end Boot

/-- Two weight files, of which the first belongs to a live lease, without persisted state, and a
list of leases that cannot be read. -/
def unreadLeases : Boot where
  net := exampleNet
  dir := .ok ⟨["backend-10.0.0.20.weight", "backend-10.0.0.21.weight"], none⟩
  db := (Redis.empty.zadd .leases "0" 2000).set (.owner "0") "i-a"
  failing c := if c = .zrangeWithScores .leases then some "timeout" else none
  now := 1000
  lease_clock := fun _ => 1000
  ttl_secs := 300

/-- A read of the leases that fails at the startup takes the whole pool down. -/
theorem disables_live_backends : ¬ ∀ boot : Boot, boot.KeepsPool := by
  intro h
  have hlive : unreadLeases.Live 0 := ⟨2000, by decide +kernel, by decide⟩
  exact (h unreadLeases fun _ _ => .ok ()).1 0 (by decide) hlive (by decide +kernel)

end Aerosuite.Scale
