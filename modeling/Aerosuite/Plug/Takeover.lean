import Aerosuite.Plug.Requests

/-! What the commands leave of a network interface on any EC2 that does what its documentation says.
A command moves no interface but the one that it has chosen.  A takeover brings that to the instance
that asked for it, or fails and leaves it where it was, without a holder, or at the instance all the
same. -/

namespace Aerosuite.Plug

open Program Query Aws Xml

section Poll

variable {σ : Type} {ec2 : Ec2 σ} {region instance_id eni_id : String} {s : σ}
  (hec2 : ec2.Documented region instance_id) (creds : AwsCredentials)

/-- The error of a takeover that waited in vain. -/
def timedOut (timeout_secs : ℕ) (eni_id : String) : Failure :=
  .error [s!"Timed out after {timeout_secs} s waiting for {eni_id} to become " ++
    "available. Check the AWS console and retry."]

/-- Where nothing else is in the way, a wait fails only at the deadline, and that only if the
interface is available not long before it at the earliest. -/
def Ec2.Overdue (ec2 : Ec2 σ) (region eni_id : String) (timeout_secs deadline rounds : ℕ) (s : σ)
    (f : Failure) : Prop :=
  ec2.Willing region → (ec2.eni s eni_id).isSome → ∀ δ takes ready, ec2.Prompt δ takes →
    (∀ s', ec2.Idles s s' → ready ≤ ec2.time s' → ec2.Available s' eni_id) → 0 < rounds →
      deadline + 2000 ≤ ec2.time s + 2000 * rounds →
        f = timedOut timeout_secs eni_id ∧ deadline < ready + 2 * δ

include hec2

/-- One poll ends the wait, or the deadline has not come and two seconds pass. -/
theorem ends_pollLoop (timeout_secs deadline rounds : ℕ) :
    Ends ec2.serve
      (fun _ s' => ec2.Idles s s' ∧ (ec2.LeftAlone eni_id → ec2.Available s' eni_id))
      (fun f s' => ec2.Idles s s' ∧ ec2.Overdue region eni_id timeout_secs deadline rounds s f) s
      (pollLoop region creds eni_id timeout_secs deadline rounds) := by
  induction rounds generalizing s with
  | zero => exact ends_throw ⟨.refl, fun _ _ _ _ _ _ _ hrounds => absurd hrounds (by decide)⟩
  | succ rounds ih =>
    rw [pollLoop]
    refine ((ends_poll hec2 creds eni_id).mono (fun _ _ h => h) ?_).bind fun xml s₁ h => ?_
    · exact fun f s' ⟨hidle, hunknown⟩ => ⟨hidle, fun hw heni => absurd heni (hunknown hw)⟩
    obtain ⟨hidle, hs₁, status, hstatus, havailable⟩ := h
    refine (ends_checked_ok hstatus).bind ?_
    rintro _ s₁ ⟨rfl, rfl⟩
    split
    next hshown =>
      exact ends_pure ⟨hidle, fun halone => halone.available hidle (havailable.mpr hshown)⟩
    next hshown =>
      have hnot : ¬ ec2.Available s eni_id := fun h => hshown (havailable.mp h)
      refine (ends_call .now).bind fun (now : ℕ) s₂ h => ?_
      obtain ⟨hnow, hs₂⟩ := h
      have hidle₂ : ec2.Idles s s₂ := hs₂ ▸ hidle.trans (idles_serve rfl)
      have hread : ∀ {δ takes}, ec2.Prompt δ takes →
          ec2.time s ≤ now ∧ now ≤ ec2.time s + 2 * δ := by
        intro δ takes hprompt
        have hreads := hprompt.reads s₁
        have hlow : ec2.time s₁ ≤ now := hnow ▸ hreads.1
        have hhigh : now ≤ ec2.time s₂ := hnow ▸ hs₂ ▸ hreads.2
        have hpolled : ec2.time s₁ ≤ ec2.time s + δ := hs₁ ▸ hprompt.latency _ s nofun
        have hclock : ec2.time s₂ ≤ ec2.time s₁ + δ := hs₂ ▸ hprompt.latency .now s₁ nofun
        have hlater := hprompt.time_le_of_idles hidle
        exact ⟨by omega, by omega⟩
      split
      next hdeadline =>
        refine ends_throw ⟨hidle₂, fun _ _ δ takes ready hprompt hready _ _ => ⟨rfl, ?_⟩⟩
        have hlate : ec2.time s < ready := not_le.mp fun h => hnot (hready s .refl h)
        have hnow := (hread hprompt).2
        omega
      next hdeadline =>
        refine (ends_call (.sleep 2000)).bind fun _ s₃ h => ?_
        obtain ⟨-, hs₃⟩ := h
        have hidle₃ : ec2.Idles s s₃ := hs₃ ▸ hidle₂.trans (idles_serve rfl)
        refine ih.mono (fun _ s' h => ⟨hidle₃.trans h.1, h.2⟩) fun f s' h => ?_
        refine ⟨hidle₃.trans h.1, fun hw heni δ takes ready hprompt hready _ hrounds => ?_⟩
        have hearly := (hread hprompt).1
        have hslept : ec2.time s + 2000 ≤ ec2.time s₃ := by
          have hsleep := hprompt.sleeps 2000 s₂
          have hlater := hprompt.time_le_of_idles hidle₂
          rw [hs₃]
          omega
        exact h.2 hw ((hw.alone eni_id).isSome hidle₃ heni) δ takes ready hprompt
          (fun s' hidle' => hready s' (hidle₃.trans hidle')) (by omega) (by omega)

/-- A wait for an interface that was just taken from its holder fails only if the detachment takes
nearly as long as the wait. -/
theorem ends_pollUntilAvailable (timeout_secs rounds : ℕ) (hfreed : ec2.Freed s eni_id) :
    Ends ec2.serve
      (fun _ s' => ec2.Idles s s' ∧ (ec2.LeftAlone eni_id → ec2.Available s' eni_id))
      (fun f s' => ec2.Idles s s' ∧ (ec2.Willing region → ∀ δ takes, ec2.Prompt δ takes →
        timeout_secs + 2 ≤ 2 * rounds →
          f = timedOut timeout_secs eni_id ∧ timeout_secs * 1000 < takes + 2 * δ)) s
      (pollUntilAvailable region creds eni_id timeout_secs rounds) := by
  refine (ends_call .now).bind fun (now : ℕ) s₁ h => ?_
  obtain ⟨hnow, hs₁⟩ := h
  have hidle : ec2.Idles s s₁ := hs₁ ▸ idles_serve rfl
  refine (ends_pollLoop hec2 creds timeout_secs (now + timeout_secs * 1000) rounds).mono
    (fun _ s' h => ⟨hidle.trans h.1, h.2⟩) fun f s' h => ⟨hidle.trans h.1, ?_⟩
  intro hw δ takes hprompt hrounds
  have halone := hw.alone eni_id
  have hlow : ec2.time s ≤ now := hnow ▸ (hprompt.reads s).1
  have hhigh : now ≤ ec2.time s₁ := hnow ▸ hs₁ ▸ (hprompt.reads s).2
  obtain ⟨hf, hdeadline⟩ := h.2 hw (halone.isSome hidle (hfreed.known halone)) δ takes
    (ec2.time s + takes) hprompt
    (fun s' hidle' => hfreed.available δ takes hprompt halone s' (hidle.trans hidle'))
    (by omega) (by omega)
  exact ⟨hf, by omega⟩

end Poll

section Outcomes

variable {σ : Type} (ec2 : Ec2 σ) (args : Args) (instance_id : String)

/-- A command fails, and has moved no interface.  When nothing was refused, there was none that it
could take. -/
def Ec2.Refused (s : σ) (lacking : σ → Prop) (reached : Except Failure Unit × σ) : Prop :=
  (∃ f, reached.1 = .error f) ∧ ec2.Idles s reached.2 ∧
    (ec2.Willing args.region → ∃ asked, ec2.Idles s asked ∧ lacking asked)

/-- What a command that wants the interface for its instance leaves of it, and why it fails when
nothing is refused that can be done. -/
inductive Ec2.Taken (e : Eni) (rounds : ℕ) (asked : σ) : Except Failure Unit × σ → Prop
  | moved {s' : σ}
      (hfree : ∀ other, other ≠ e.id.text → ec2.LeftAlone other →
        ¬ ec2.At asked other instance_id (toString args.device_index))
      (hat : ec2.At s' e.id.text instance_id (toString args.device_index))
      (hfile : ∀ path ∈ args.write_ip_file, ec2.file s' path = some e.private_ip.text) :
      Taken e rounds asked (.ok (), s')
  /-- EC2 has not confirmed the attachment, or the file could not be written. -/
  | untold {f : Failure} {s' : σ}
      (hat : ec2.At s' e.id.text instance_id (toString args.device_index))
      (hwhy : ¬ ec2.Willing args.region) : Taken e rounds asked (.error f, s')
  | freed {f : Failure} {s' : σ} (hused : e.status.text = "in-use")
      (hnone : ec2.held s' e.id.text = none)
      (hwhy : ec2.Willing args.region →
        ec2.Occupied asked e.id.text instance_id (toString args.device_index) ∨
        ∀ δ takes, ec2.Prompt δ takes → args.takeover_timeout + 2 ≤ 2 * rounds →
          f = timedOut args.takeover_timeout e.id.text ∧
            args.takeover_timeout * 1000 < takes + 2 * δ) : Taken e rounds asked (.error f, s')
  | kept {f : Failure} {s' : σ} (hheld : ec2.held s' e.id.text = ec2.held asked e.id.text)
      (hwhy : ec2.Willing args.region → e.status.text = "available" ∧
        ec2.Occupied asked e.id.text instance_id (toString args.device_index)) :
      Taken e rounds asked (.error f, s')

/-- What a detachment leaves of the interface. -/
def Ec2.LetGo (e : Eni) (asked : σ) (reached : Except Failure Unit × σ) : Prop :=
  reached.1 = .ok () ∧ ec2.held reached.2 e.id.text = none ∨
    (∃ f, reached.1 = .error f) ∧ ¬ ec2.Willing args.region ∧
      (ec2.held reached.2 e.id.text = none ∨
        ec2.held reached.2 e.id.text = ec2.held asked e.id.text)

end Outcomes

section Command

variable {σ : Type} {ec2 : Ec2 σ} {args : Args} {instance_id : String} {selector : EniSelector}
  {e : Eni} {asked s : σ} (hec2 : ec2.Documented args.region instance_id) (creds : AwsCredentials)
  (rounds : ℕ)

theorem Ec2.Spares.occupied (h : ec2.Spares e.id.text asked s) (hw : ec2.Willing args.region)
    {index : String} (hoccupied : ec2.Occupied s e.id.text instance_id index) :
    ec2.Occupied asked e.id.text instance_id index := by
  obtain ⟨other, hne, hat⟩ := hoccupied
  refine ⟨other, hne, ?_⟩
  rwa [Ec2.At, h other hne (hw.alone other)] at hat

theorem Ec2.Spares.free (h : ec2.Spares e.id.text asked s) {index : String}
    (hfree : ¬ ec2.Occupied s e.id.text instance_id index) :
    ∀ other, other ≠ e.id.text → ec2.LeftAlone other → ¬ ec2.At asked other instance_id index := by
  intro other hne halone hat
  refine hfree ⟨other, hne, ?_⟩
  rwa [Ec2.At, h other hne halone]

include hec2

/-- The last two steps of a command that attaches an interface: it is available, or was when the
command has looked. -/
theorem ends_attach (halone : ec2.LeftAlone e.id.text) (hspares : ec2.Spares e.id.text asked s)
    (havailable : ec2.Available s e.id.text)
    (hheld : e.status.text = "in-use" ∧ ec2.held s e.id.text = none ∨
      e.status.text = "available" ∧ ec2.held s e.id.text = ec2.held asked e.id.text) :
    Ends ec2.serve
      (fun r s' => ec2.Spares e.id.text asked s' ∧
        ec2.Taken args instance_id e rounds asked (.ok r, s'))
      (fun f s' => ec2.Spares e.id.text asked s' ∧
        ec2.Taken args instance_id e rounds asked (.error f, s')) s (do
      let _ ← doAttachEni args.region creds instance_id e.id.text args.device_index
      writeIpFile args.write_ip_file (some e.private_ip.text)) := by
  refine ((ends_doAttachEni hec2 creds instance_id args.device_index).mono (fun _ _ h => h)
    ?_).bind fun _ s₁ h => ?_
  · rintro f s' ⟨hspares', hcase⟩
    refine ⟨hspares.trans hspares', ?_⟩
    obtain ⟨-, hat, hwhy⟩ | ⟨hsame, hwhy⟩ := hcase
    · exact .untold hat fun hw => hwhy hw havailable
    · have hoccupied : ec2.Willing args.region →
          ec2.Occupied asked e.id.text instance_id (toString args.device_index) :=
        fun hw => hspares.occupied hw (hwhy hw havailable)
      obtain ⟨hused, hnone⟩ | ⟨hfree, hasked⟩ := hheld
      · exact .freed hused (hsame.trans hnone) fun hw => .inl (hoccupied hw)
      · exact .kept (hsame.trans hasked) fun hw => ⟨hfree, hoccupied hw⟩
  · obtain ⟨hspares₁, hfree, hat⟩ := h
    have hthere : ∀ {s'}, ec2.Idles s₁ s' →
        ec2.At s' e.id.text instance_id (toString args.device_index) := fun hidle => by
      rwa [Ec2.At, halone.held_eq hidle]
    refine (ends_writeIpFile hec2 args.write_ip_file e.private_ip.text).mono ?_ ?_
    · rintro ⟨⟩ s' ⟨hidle, hfile⟩
      exact ⟨(hspares.trans hspares₁).trans (spares_of_idles hidle),
        .moved (hspares.free hfree) (hthere hidle) hfile⟩
    · rintro f s' ⟨hidle, hwhy⟩
      exact ⟨(hspares.trans hspares₁).trans (spares_of_idles hidle), .untold (hthere hidle) hwhy⟩

/-- An interface in use is taken from its holder. -/
theorem ends_freeEni {children : List Tree} (halone : ec2.LeftAlone e.id.text)
    (hidle : ec2.Idles asked s) (hhas : ec2.Has asked e) (hused : e.status.text = "in-use")
    (hshown : Shown children e) :
    Ends ec2.serve
      (fun _ s' => ec2.Spares e.id.text asked s' ∧ ec2.Available s' e.id.text ∧
        ec2.held s' e.id.text = none)
      (fun f s' => ec2.Spares e.id.text asked s' ∧
        ec2.Taken args instance_id e rounds asked (.error f, s')) s
      (freeEni args creds e.id.text e.status.text (renderAll children) rounds) := by
  obtain ⟨a, ha, hattachment⟩ := hshown.attachmentOf_eq hused
  have hheld : ec2.held s e.id.text = some a := by
    rw [halone.held_eq hidle, Ec2.held, hhas, Option.bind_some, ha]
  have hspares : ec2.Spares e.id.text asked s := spares_of_idles hidle
  rw [hused, freeEni, if_pos rfl]
  refine (ends_required_some hattachment).bind ?_
  rintro _ s ⟨rfl, rfl⟩
  refine ((ends_doDetachEni hec2 creds hheld true).mono (fun _ _ h => h) ?_).bind fun _ s₁ h => ?_
  · rintro f s' ⟨hspares', hwhy, hnone | hsame⟩
    · exact ⟨hspares.trans hspares', .freed hused hnone fun hw => absurd hw hwhy⟩
    · exact ⟨hspares.trans hspares', .kept (hsame.trans (halone.held_eq hidle))
        fun hw => absurd hw hwhy⟩
  · obtain ⟨hspares₁, hfreed⟩ := h
    refine (ends_pollUntilAvailable hec2 creds args.takeover_timeout rounds hfreed).mono ?_ ?_
    · rintro _ s' ⟨hidle', havailable⟩
      exact ⟨(hspares.trans hspares₁).trans (spares_of_idles hidle'), havailable halone,
        (halone.held_eq hidle').trans hfreed.held⟩
    · rintro f s' ⟨hidle', hwhy⟩
      exact ⟨(hspares.trans hspares₁).trans (spares_of_idles hidle'),
        .freed hused ((halone.held_eq hidle').trans hfreed.held) fun hw => .inr (hwhy hw)⟩

end Command

section Commands

variable {σ : Type} {ec2 : Ec2 σ} {args : Args} {instance_id : String} {selector : EniSelector}
  {s : σ} (hec2 : ec2.Documented args.region instance_id) (creds : AwsCredentials)
  (hplain : selector.Plainly)
  (halone : ∀ s e, ec2.Has s e → selector.Selects e → ec2.LeftAlone e.id.text)

/-- A command has chosen an interface that the selector names and that has one of the statuses, and
moves no other. -/
def Ec2.Chosen (ec2 : Ec2 σ) (selector : EniSelector) (statuses : List String) (s : σ)
    (Done : σ → Eni → Prop) (s' : σ) : Prop :=
  ∃ asked e, ec2.Idles s asked ∧ ec2.Has asked e ∧ selector.Selects e ∧ e.status.text ∈ statuses ∧
    ec2.Spares e.id.text s s' ∧ Done asked e

theorem Ec2.Chosen.of_asked {statuses : List String} {Done : σ → Eni → Prop} {asked s' : σ}
    {e : Eni} (hasked : ec2.Idles s asked) (hhas : ec2.Has asked e)
    (hselects : selector.Selects e)
    (hstatus : e.status.text ∈ statuses) (hspares : ec2.Spares e.id.text asked s')
    (hdone : Done asked e) : ec2.Chosen selector statuses s Done s' :=
  ⟨asked, e, hasked, hhas, hselects, hstatus, (spares_of_idles hasked).trans hspares, hdone⟩

include hec2

/-- Before the first query, a command asks the instance for its id and its credentials. -/
theorem ends_run {Q : Unit → σ → Prop} {F : Failure → σ → Prop} (rounds : ℕ)
    (hselector : args.eniSelector = .ok selector)
    (hearly : ∀ f s', ec2.Idles s s' → ¬ ec2.Willing args.region → F f s')
    (hcommand : ∀ creds s', ec2.Idles s s' → Ends ec2.serve Q F s'
      (if args.attach then cmdAttach args selector instance_id creds
        else if args.detach then cmdDetach args selector creds
        else cmdTakeover args selector instance_id creds rounds)) :
    Ends ec2.serve Q F s (run args rounds) := by
  have hid : Ends ec2.serve (fun id s' => id = instance_id ∧ ec2.Idles s s') F s
      fetchImdsInstanceId := by
    refine (ends_call .fetchImdsInstanceId).bind fun r s' hr => ?_
    obtain ⟨rfl, rfl⟩ := hr
    exact ends_reply (fun id hok => ⟨hec2.imds s id hok, idles_serve rfl⟩) fun f herror =>
      hearly f _ (idles_serve rfl) fun hw => herror (hw.identifies s).1
  refine hid.bind ?_
  rintro _ s₁ ⟨rfl, hidle₁⟩
  have hcreds : Ends ec2.serve (fun _ s' => ec2.Idles s s') F s₁ fetchImdsCredentials := by
    refine (ends_call .fetchImdsCredentials).bind fun r s' hr => ?_
    obtain ⟨rfl, rfl⟩ := hr
    exact ends_reply (fun _ _ => hidle₁.trans (idles_serve rfl)) fun f herror =>
      hearly f _ (hidle₁.trans (idles_serve rfl)) fun hw => herror (hw.identifies s₁).2
  refine hcreds.bind fun creds s₂ hidle₂ => ?_
  rw [hselector]
  exact hcommand creds s₂ hidle₂

/-- A command has failed before its first query, or what it ends with is what the run reaches. -/
theorem reached_run {lacking : σ → Prop} (Acts : Except Failure Unit × σ → Prop) (rounds : ℕ)
    (hselector : args.eniSelector = .ok selector)
    (hcommand : ∀ creds asked, ec2.Idles s asked → Ends ec2.serve
      (fun r s' => ec2.Refused args s lacking (.ok r, s') ∨ Acts (.ok r, s'))
      (fun f s' => ec2.Refused args s lacking (.error f, s') ∨ Acts (.error f, s')) asked
      (if args.attach then cmdAttach args selector instance_id creds
        else if args.detach then cmdDetach args selector creds
        else cmdTakeover args selector instance_id creds rounds)) :
    ec2.Refused args s lacking ((run args rounds).run.run ec2.serve s) ∨
      Acts ((run args rounds).run.run ec2.serve s) := by
  refine Ends.reached (P := fun reached => ec2.Refused args s lacking reached ∨ Acts reached)
    (ends_run hec2 rounds hselector (fun f s' hidle hw => ?_) hcommand)
  exact .inl ⟨⟨f, rfl⟩, hidle, fun hw' => absurd hw' hw⟩

include hplain halone

/-- A takeover acts on one interface, which the selector names.  That comes to the instance, or the
takeover fails; when nothing is refused that can be done, it fails only if another interface is at
the index, after it has taken the interface from its holder all the same, or if the detachment takes
nearly as long as the takeover waits. -/
theorem takeover_acts (hselector : args.eniSelector = .ok selector)
    (htakeover : args.attach = false ∧ args.detach = false) (rounds : ℕ) (s : σ) :
    let reached := (run args rounds).run.run ec2.serve s
    ec2.Refused args s (fun asked => (∀ e, ec2.Has asked e → ¬ selector.Selects e) ∨
      ∃ e, ec2.Has asked e ∧ selector.Selects e ∧ e.status.text ∉ ["in-use", "available"]) reached ∨
    ec2.Chosen selector ["in-use", "available"] s
      (fun asked e => ec2.Taken args instance_id e rounds asked reached) reached.2 := by
  intro reached
  refine reached_run hec2 (fun reached => ec2.Chosen selector _ s
    (fun asked e => ec2.Taken args instance_id e rounds asked reached) reached.2)
    rounds hselector fun creds asked hasked => ?_
  rw [if_neg (by simp [htakeover.1]), if_neg (by simp [htakeover.2])]
  refine ends_found hec2 creds hplain (by simp) ?_ fun xml e children s₁ hidle hwanted hshown => ?_
  · exact fun f s' hidle hnone => .inl ⟨⟨f, rfl⟩, hasked.trans hidle, fun hw => ⟨asked, hasked,
      .inl fun e hhas hselects => hnone hw e ⟨hhas, hselects, by simp⟩⟩⟩
  obtain ⟨hhas, hselects, -⟩ := hwanted
  obtain ⟨count, hcount⟩ := countItems_total xml
  refine (ends_checked_ok hcount).bind ?_
  rintro _ s₁ ⟨rfl, rfl⟩
  refine (ends_required_some hshown.scalar_id).bind ?_
  rintro _ s₁ ⟨rfl, rfl⟩
  refine (ends_required_some hshown.scalar_status).bind ?_
  rintro _ s₁ ⟨rfl, rfl⟩
  refine (ends_checked_ok hshown.scalar_private_ip).bind ?_
  rintro _ s₁ ⟨rfl, rfl⟩
  have halone_e := halone asked e hhas hselects
  have hchosen : ∀ (r : Except Failure Unit) s', e.status.text ∈ ["in-use", "available"] →
      ec2.Spares e.id.text asked s' ∧ ec2.Taken args instance_id e rounds asked (r, s') →
      ec2.Chosen selector ["in-use", "available"] s
        (fun asked e => ec2.Taken args instance_id e rounds asked (r, s')) s' :=
    fun _ _ hstatus h => .of_asked hasked hhas hselects hstatus h.1 h.2
  by_cases hused : e.status.text = "in-use"
  · refine ((ends_freeEni hec2 creds rounds halone_e hidle hhas hused hshown).mono
      (fun _ _ h => h) fun f s' h => .inr (hchosen (.error f) s' (by simp [hused]) h)).bind
        fun _ s₂ h => ?_
    obtain ⟨hspares, havailable, hnone⟩ := h
    exact (ends_attach hec2 creds rounds halone_e hspares havailable (.inl ⟨hused, hnone⟩)).mono
      (fun r s' h => .inr (hchosen (.ok r) s' (by simp [hused]) h))
      fun f s' h => .inr (hchosen (.error f) s' (by simp [hused]) h)
  · by_cases hfree : e.status.text = "available"
    · rw [freeEni, if_neg hused, if_pos hfree]
      exact (ends_attach hec2 creds rounds halone_e (spares_of_idles hidle)
        (halone_e.available hidle (hhas.available.mpr hfree))
        (.inr ⟨hfree, halone_e.held_eq hidle⟩)).mono
        (fun r s' h => .inr (hchosen (.ok r) s' (by simp [hfree]) h))
        fun f s' h => .inr (hchosen (.error f) s' (by simp [hfree]) h)
    · rw [freeEni, if_neg hused, if_neg hfree]
      exact ends_throw (.inl ⟨⟨_, rfl⟩, hasked.trans hidle, fun _ => ⟨asked, hasked,
        .inr ⟨e, hhas, hselects, by simp [hused, hfree]⟩⟩⟩)

end Commands

def heldAccount : Account where
  attachment := some ⟨plainText "eni-attach-0" (by decide), "i-2", "1"⟩
  ready := 0
  time := 0
  files _ := none

def slotArgs (attach : Bool) : Args :=
  ⟨none, none, none, [], some 0, attach, false, 60, 1, some "/run/ip", false, "eu-west-2"⟩

/-- The instance i-1 takes over the interface that i-2 has. -/
theorem takeover_acts_held : ∃ s', (run (slotArgs false) 31).run.run smallEc2.serve heldAccount =
    (.ok (), s') ∧ smallEc2.At s' "eni-0" "i-1" "1" ∧ s'.files "/run/ip" = some "10.0.0.7" := by
  have hselector : (slotArgs false).eniSelector = .ok (.slot 0) := rfl
  have hacts := takeover_acts (Account.documented _) (EniSelector.plainly_slot 0)
    (fun _ e _ _ => Account.leftAlone e.id.text) hselector ⟨rfl, rfl⟩ 31 heldAccount
  have hused : ∀ {s}, smallEc2.Idles heldAccount s → s.eni.status.text = "in-use" := fun hidle => by
    have hattachment := (Account.idles_iff hidle).2.1
    simp [Account.eni, Account.status, hattachment, heldAccount, plainText]
  generalize (run (slotArgs false) 31).run.run smallEc2.serve heldAccount = reached at hacts ⊢
  rcases hacts with ⟨-, -, hlack⟩ | ⟨asked, e, hidle, hhas, -, -, -, htaken⟩
  · obtain ⟨asked, hidle, hnone | ⟨e, hhas, -, hstatus⟩⟩ := hlack (Account.willing _)
    · exact absurd asked.selects (hnone _ (Account.has_iff.mpr rfl))
    · rw [Account.has_iff.mp hhas, hused hidle] at hstatus
      exact absurd List.mem_cons_self hstatus
  · obtain rfl := Account.has_iff.mp hhas
    cases htaken with
    | moved hfree hat hfile => exact ⟨_, rfl, hat, hfile _ rfl⟩
    | untold hat hwhy => exact absurd (Account.willing _) hwhy
    | freed _ hnone hwhy =>
      rcases hwhy (Account.willing _) with hoccupied | hlate
      · exact absurd hoccupied (Account.not_occupied _ _)
      · exact absurd (hlate 5 3000 Account.prompt (by decide)).2 (by decide)
    | kept _ hwhy =>
      have hfree := (hwhy (Account.willing _)).1
      rw [hused hidle] at hfree
      exact absurd hfree (by decide)

section Commands

variable {σ : Type} {ec2 : Ec2 σ} {args : Args} {instance_id : String} {selector : EniSelector}
  (hec2 : ec2.Documented args.region instance_id) (hplain : selector.Plainly)
  (halone : ∀ s e, ec2.Has s e → selector.Selects e → ec2.LeftAlone e.id.text)

include hec2 hplain halone

/-- An attachment acts on one interface, which the selector names and which is available, and a
detachment on one in use.  When nothing is refused that can be done, an attachment fails only if
another interface is at the index, and a detachment does not fail. -/
theorem attach_detach_act (hselector : args.eniSelector = .ok selector) (rounds : ℕ) (s : σ) :
    let reached := (run args rounds).run.run ec2.serve s
    (args.attach = true →
      ec2.Refused args s (fun asked => ∀ e, ec2.Has asked e → selector.Selects e →
        e.status.text ≠ "available") reached ∨
      ec2.Chosen selector ["available"] s
        (fun asked e => ec2.Taken args instance_id e rounds asked reached) reached.2) ∧
    (args.attach = false → args.detach = true →
      ec2.Refused args s (fun asked => ∀ e, ec2.Has asked e → selector.Selects e →
        e.status.text ≠ "in-use") reached ∨
      ec2.Chosen selector ["in-use"] s (fun asked e => ec2.LetGo args e asked reached)
        reached.2) := by
  intro reached
  refine ⟨fun hattach => ?_, fun hattach hdetach => ?_⟩
  · refine reached_run hec2 (fun reached => ec2.Chosen selector _ s
      (fun asked e => ec2.Taken args instance_id e rounds asked reached) reached.2)
      rounds hselector fun creds asked hasked => ?_
    rw [if_pos hattach]
    refine ((ends_resolveEni hec2 creds hplain (by simp [Literal])).mono (fun _ _ h => h)
      ?_).bind ?_
    · rintro f s' ⟨hidle, hnone⟩
      exact .inl ⟨⟨f, rfl⟩, hasked.trans hidle, fun hw => ⟨asked, hasked, fun e hhas hselects hst =>
        hnone hw e ⟨hhas, hselects, by simpa using hst⟩⟩⟩
    · rintro _ s₁ ⟨e, hidle, ⟨hhas, hselects, hstatus⟩, rfl⟩
      have hfree : e.status.text = "available" := hstatus _ rfl
      have halone_e := halone asked e hhas hselects
      have hchosen : ∀ (r : Except Failure Unit) s', ec2.Spares e.id.text asked s' ∧
          ec2.Taken args instance_id e rounds asked (r, s') →
          ec2.Chosen selector ["available"] s
            (fun asked e => ec2.Taken args instance_id e rounds asked (r, s')) s' :=
        fun _ _ h => .of_asked hasked hhas hselects (by simp [hfree]) h.1 h.2
      exact (ends_attach hec2 creds rounds halone_e (spares_of_idles hidle)
        (halone_e.available hidle (hhas.available.mpr hfree))
        (.inr ⟨hfree, halone_e.held_eq hidle⟩)).mono (fun r s' h => .inr (hchosen (.ok r) s' h))
        fun f s' h => .inr (hchosen (.error f) s' h)
  · refine reached_run hec2 (fun reached => ec2.Chosen selector _ s
      (fun asked e => ec2.LetGo args e asked reached) reached.2)
      rounds hselector fun creds asked hasked => ?_
    rw [if_neg (by simp [hattach]), if_pos hdetach]
    refine ((ends_resolveEniForDetach hec2 creds hplain).mono (fun _ _ h => h) ?_).bind ?_
    · rintro f s' ⟨hidle, hnone⟩
      exact .inl ⟨⟨f, rfl⟩, hasked.trans hidle, fun hw => ⟨asked, hasked, fun e hhas hselects hst =>
        hnone hw e ⟨hhas, hselects, by simpa using hst⟩⟩⟩
    · rintro _ s₁ ⟨e, a, hidle, ⟨hhas, hselects, hstatus⟩, ha, rfl⟩
      have halone_e := halone asked e hhas hselects
      have hheld : ec2.held s₁ e.id.text = some a := by
        rw [halone_e.held_eq hidle, Ec2.held, hhas, Option.bind_some, ha]
      have hchosen : ∀ (r : Except Failure Unit) s', ec2.Spares e.id.text s₁ s' →
          ec2.LetGo args e asked (r, s') → ec2.Chosen selector ["in-use"] s
            (fun asked e => ec2.LetGo args e asked (r, s')) s' :=
        fun _ _ hspares h => .of_asked hasked hhas hselects (by simpa using hstatus _ rfl)
          ((spares_of_idles hidle).trans hspares) h
      refine (ends_doDetachEni hec2 creds hheld args.force).mono ?_ ?_
      · rintro ⟨⟩ s' ⟨hspares, hfreed⟩
        exact .inr (hchosen _ s' hspares (.inl ⟨rfl, hfreed.held⟩))
      · rintro f s' ⟨hspares, hwhy, hleft⟩
        refine .inr (hchosen _ s' hspares (.inr ⟨⟨f, rfl⟩, hwhy, hleft.imp_right fun h => ?_⟩))
        exact h.trans (halone_e.held_eq hidle)

end Commands

def idleAccount : Account := { heldAccount with attachment := none }

/-- The instance i-1 attaches the interface when nobody has it. -/
theorem attach_detach_act_idle : ∃ s', (run (slotArgs true) 0).run.run smallEc2.serve idleAccount =
    (.ok (), s') ∧ smallEc2.At s' "eni-0" "i-1" "1" ∧ s'.files "/run/ip" = some "10.0.0.7" := by
  have hselector : (slotArgs true).eniSelector = .ok (.slot 0) := rfl
  have hacts := (attach_detach_act (Account.documented _) (EniSelector.plainly_slot 0)
    (fun _ e _ _ => Account.leftAlone e.id.text) hselector 0 idleAccount).1 rfl
  have hfree : ∀ {s}, smallEc2.Idles idleAccount s → s.eni.status.text = "available" :=
    fun hidle => by
      obtain ⟨-, hattachment, hready⟩ := Account.idles_iff hidle
      simp [Account.eni, Account.status, hattachment, hready, idleAccount, heldAccount, plainText]
  generalize (run (slotArgs true) 0).run.run smallEc2.serve idleAccount = reached at hacts ⊢
  rcases hacts with ⟨-, -, hlack⟩ | ⟨asked, e, hidle, hhas, -, -, -, htaken⟩
  · obtain ⟨asked, hidle, hnone⟩ := hlack (Account.willing _)
    exact absurd (hfree hidle) (hnone _ (Account.has_iff.mpr rfl) asked.selects)
  · obtain rfl := Account.has_iff.mp hhas
    cases htaken with
    | moved _ hat hfile => exact ⟨_, rfl, hat, hfile _ rfl⟩
    | untold hat hwhy => exact absurd (Account.willing _) hwhy
    | freed hused =>
      rw [hfree hidle] at hused
      exact absurd hused (by decide)
    | kept _ hwhy => exact absurd (hwhy (Account.willing _)).2 (Account.not_occupied _ _)

end Aerosuite.Plug
