import Aerosuite.Plug.Ec2

/-! What the requests of the commands end with on any EC2 that does what its documentation says. -/

namespace Aerosuite.Plug

open Program Query Aws Xml

section Idle

variable {σ : Type} {ec2 : Ec2 σ} {region instance_id eni_id : String} {s s' s'' : σ}

theorem idles_serve {op : PlugOp} (hop : op.moves = none) : ec2.Idles s (ec2.serve op s).2 :=
  .single ⟨op, hop, rfl⟩

theorem Ec2.LeftAlone.held_eq (h : ec2.LeftAlone eni_id) (hidle : ec2.Idles s s') :
    ec2.held s' eni_id = ec2.held s eni_id := by
  induction hidle with
  | refl => rfl
  | tail _ hstep ih =>
    obtain ⟨op, hop, rfl⟩ := hstep
    exact (h.keeps op _ (by simp [hop])).1.trans ih

theorem Ec2.LeftAlone.available (h : ec2.LeftAlone eni_id) (hidle : ec2.Idles s s')
    (havailable : ec2.Available s eni_id) : ec2.Available s' eni_id := by
  induction hidle with
  | refl => exact havailable
  | tail _ hstep ih =>
    obtain ⟨op, hop, rfl⟩ := hstep
    exact (h.keeps op _ (by simp [hop])).2 ih

theorem Ec2.LeftAlone.isSome (h : ec2.LeftAlone eni_id) (hidle : ec2.Idles s s')
    (heni : (ec2.eni s eni_id).isSome) : (ec2.eni s' eni_id).isSome := by
  induction hidle with
  | refl => exact heni
  | tail _ hstep ih =>
    obtain ⟨op, -, rfl⟩ := hstep
    exact h.stays op _ ih

theorem Ec2.Prompt.time_le_of_idles {δ takes : ℕ} (h : ec2.Prompt δ takes)
    (hidle : ec2.Idles s s') : ec2.time s ≤ ec2.time s' := by
  induction hidle with
  | refl => exact le_rfl
  | tail _ hstep ih =>
    obtain ⟨op, -, rfl⟩ := hstep
    exact ih.trans (h.time_le op _)

theorem Ec2.Has.available {e : Eni} (h : ec2.Has s e) :
    ec2.Available s e.id.text ↔ e.status.text = "available" := by
  constructor
  · rintro ⟨e', he', hstatus⟩
    rwa [← Option.some.inj (h.symm.trans he')] at hstatus
  · exact fun hstatus => ⟨e, h, hstatus⟩

/-- The other interfaces are where they were, unless somebody else moves them. -/
def Ec2.Spares (ec2 : Ec2 σ) (eni_id : String) (s s' : σ) : Prop :=
  ∀ other, other ≠ eni_id → ec2.LeftAlone other → ec2.held s' other = ec2.held s other

theorem spares_of_idles (h : ec2.Idles s s') : ec2.Spares eni_id s s' :=
  fun _ _ halone => halone.held_eq h

theorem Ec2.Spares.trans (h : ec2.Spares eni_id s s') (h' : ec2.Spares eni_id s' s'') :
    ec2.Spares eni_id s s'' :=
  fun other hne halone => (h' other hne halone).trans (h other hne halone)

theorem spares_attach {op : PlugOp} {to_id index : String}
    (hop : op.moves = some (.attach eni_id to_id index)) :
    ec2.Spares eni_id s (ec2.serve op s).2 := by
  intro other hne halone
  refine (halone.keeps op s fun request hrequest => ?_).1
  obtain rfl : MoveRequest.attach eni_id to_id index = request := by simpa [hop] using hrequest
  exact hne.symm

theorem spares_detach (hec2 : ec2.Documented region instance_id) {op : PlugOp} {a : Attachment}
    (hheld : ec2.held s eni_id = some a) (hop : op.moves = some (.detach a.id.text)) :
    ec2.Spares eni_id s (ec2.serve op s).2 := by
  intro other hne halone
  refine (halone.keeps op s fun request hrequest => ?_).1
  obtain rfl : MoveRequest.detach a.id.text = request := by simpa [hop] using hrequest
  rintro ⟨b, hb, hid⟩
  exact hne (hec2.attachment_unique s eni_id other a hheld b hb hid)

end Idle

section Steps

variable {σ α : Type} {ec2 : Ec2 σ} {s : σ} {Q : α → σ → Prop} {F : Failure → σ → Prop}

theorem ends_call (op : PlugOp) :
    Ends ec2.serve (fun r s' => r = (ec2.serve op s).1 ∧ s' = (ec2.serve op s).2) F s
      (liftM (plugCall op) : PlugProgram op.Reply) :=
  ends_perform ⟨rfl, rfl⟩

theorem ends_reply {contexts : List String} {r : Except (List String) α}
    (hok : ∀ a, r = .ok a → Q a s) (herror : ∀ f, ¬ r.isOk → F f s) :
    Ends ec2.serve Q F s (reply contexts r) := by
  cases r with
  | ok a => exact ends_pure (hok a rfl)
  | error chain => exact ends_throw (herror _ (by simp [Except.isOk, Except.toBool]))

theorem ends_checked {r : Checked α} (hok : ∀ a, r = .ok a → Q a s)
    (herror : ∀ f, (∀ a, r ≠ .ok a) → F f s) : Ends ec2.serve Q F s (checked r) := by
  cases r with
  | ok a => exact ends_pure (hok a rfl)
  | error fault => exact ends_throw (herror _ (by simp))

theorem ends_required {message : String} {r : Checked (Option α)}
    (hok : ∀ a, r = .ok (some a) → Q a s) (herror : ∀ f, (∀ a, r ≠ .ok (some a)) → F f s) :
    Ends ec2.serve Q F s (required message r) := by
  refine Ends.bind (Q := fun o s' => r = .ok o ∧ s' = s)
    (ends_checked (fun o ho => ⟨ho, rfl⟩) fun f h => herror f fun a => h (some a)) ?_
  rintro o s' ⟨ho, rfl⟩
  cases o with
  | some a => exact ends_pure (hok a ho)
  | none => exact ends_throw (herror _ (by simp [ho]))

theorem ends_checked_ok {r : Checked α} {a : α} (h : r = .ok a) :
    Ends ec2.serve (fun b s' => b = a ∧ s' = s) F s (checked r) := by
  rw [h]
  exact ends_pure ⟨rfl, rfl⟩

theorem ends_required_some {message : String} {r : Checked (Option α)} {a : α}
    (h : r = .ok (some a)) :
    Ends ec2.serve (fun b s' => b = a ∧ s' = s) F s (required message r) := by
  rw [h]
  exact ends_pure ⟨rfl, rfl⟩

theorem ends_ec2Query (region : String) (creds : AwsCredentials) (params : Params) :
    Ends ec2.serve
      (fun xml s' => (ec2.serve (ec2Op region creds params) s).1 = .ok xml ∧
        s' = (ec2.serve (ec2Op region creds params) s).2)
      (fun _ s' => ¬ (ec2.serve (ec2Op region creds params) s).1.isOk ∧
        s' = (ec2.serve (ec2Op region creds params) s).2) s
      (ec2Query region creds params) := by
  refine (ends_call (ec2Op region creds params)).bind fun r s' hr => ?_
  obtain ⟨rfl, rfl⟩ := hr
  exact ends_reply (fun xml h => ⟨h, rfl⟩) fun _ h => ⟨h, rfl⟩

end Steps

section Descriptions

variable {σ : Type} {ec2 : Ec2 σ} {region instance_id : String} {selector : EniSelector}
  {status : Option String} {s : σ} (hec2 : ec2.Documented region instance_id)
  (creds : AwsCredentials)

theorem EniSelector.ids_of_selects {e : Eni} (h : selector.Selects e) :
    ∀ id ∈ selector.ids, e.id.text = id := by
  cases selector with
  | id value => simpa [EniSelector.ids, EniSelector.Selects] using h
  | name value | description value | tags value | slot value => simp [EniSelector.ids]

include hec2

/-- An answer lists what a command looks for. -/
theorem ends_describeEniXml (hplain : selector.Plainly) (hstatus : ∀ st ∈ status, Literal st) :
    Ends ec2.serve
      (fun xml s' => ec2.Idles s s' ∧ ∃ listed, Lists xml listed ∧
        ∀ e, e ∈ listed ↔ ec2.Wanted s selector status e)
      (fun _ s' => ec2.Idles s s' ∧
        (ec2.Willing region → ∀ e, ¬ ec2.Wanted s selector status e)) s
      (describeEniXml region creds selector status) := by
  have haction := lookup_describeParams selector status
  have hmoves := moves_of_describes region creds haction
  refine (ends_ec2Query region creds _).mono ?_ ?_
  · rintro xml s' ⟨hxml, rfl⟩
    obtain ⟨listed, hlists, hlisted⟩ := hec2.describes creds _ s xml haction hxml
    refine ⟨idles_serve hmoves, listed, hlists, fun e => ?_⟩
    rw [hlisted, described_describeParams hec2 e hplain hstatus]
  · rintro _ s' ⟨herror, rfl⟩
    refine ⟨idles_serve hmoves, fun hwilling e hwanted => herror ?_⟩
    refine hwilling.describes creds _ s haction fun id hid => ?_
    rw [readIds_describeParams] at hid
    have he := hwanted.1
    rw [Ec2.Has, EniSelector.ids_of_selects hwanted.2.1 id hid] at he
    rw [he, Option.isSome_some]

/-- A command goes on with the first interface of the answer, or fails when there is none. -/
theorem ends_found {α : Type} {Q : α → σ → Prop} {F : Failure → σ → Prop} {message : String}
    {next : List Char → List Char → PlugProgram α} (hplain : selector.Plainly)
    (hstatus : ∀ st ∈ status, Literal st)
    (hnone : ∀ f s', ec2.Idles s s' →
      (ec2.Willing region → ∀ e, ¬ ec2.Wanted s selector status e) → F f s')
    (hsome : ∀ xml e children s', ec2.Idles s s' → ec2.Wanted s selector status e →
      Shown children e → Ends ec2.serve Q F s' (next xml (renderAll children))) :
    Ends ec2.serve Q F s (do
      let xml ← describeEniXml region creds selector status
      let item_xml ← required message (firstItem xml)
      next xml item_xml) := by
  refine ((ends_describeEniXml hec2 creds hplain hstatus).mono (fun _ _ h => h)
    fun f s' h => hnone f s' h.1 h.2).bind fun xml s' h => ?_
  obtain ⟨hidle, listed, hlists, hlisted⟩ := h
  obtain ⟨rfl, hitem⟩ | ⟨e, enis, children, rfl, hitem, hshown⟩ := hlists.firstItem
  · refine Ends.bind (Q := fun _ _ => False) (ends_required (by simp [hitem]) fun f _ => ?_)
      (by simp)
    exact hnone f s' hidle fun _ e hwanted => by simpa using (hlisted e).mpr hwanted
  · refine (ends_required_some hitem).bind ?_
    rintro _ _ ⟨rfl, rfl⟩
    exact hsome xml e children _ hidle ((hlisted e).mp List.mem_cons_self) hshown

theorem ends_resolveEni (hplain : selector.Plainly) (hstatus : ∀ st ∈ status, Literal st) :
    Ends ec2.serve
      (fun found s' => ∃ e, ec2.Idles s s' ∧ ec2.Wanted s selector status e ∧
        found = (e.id.text, some e.private_ip.text))
      (fun _ s' => ec2.Idles s s' ∧ (ec2.Willing region → ∀ e, ¬ ec2.Wanted s selector status e)) s
      (resolveEni region creds selector status) := by
  refine ends_found hec2 creds hplain hstatus (fun _ _ hidle hnone => ⟨hidle, hnone⟩)
    fun xml e children s₁ hidle hwanted hshown => ?_
  obtain ⟨count, hcount⟩ := countItems_total xml
  refine (ends_checked_ok hcount).bind ?_
  rintro _ s₁ ⟨rfl, rfl⟩
  refine (ends_required_some hshown.scalar_id).bind ?_
  rintro _ s₁ ⟨rfl, rfl⟩
  refine (ends_checked_ok hshown.scalar_private_ip).bind ?_
  rintro _ s₁ ⟨rfl, rfl⟩
  exact ends_pure ⟨e, hidle, hwanted, rfl⟩

theorem ends_resolveEniForDetach (hplain : selector.Plainly) :
    Ends ec2.serve
      (fun found s' => ∃ e a, ec2.Idles s s' ∧ ec2.Wanted s selector (some "in-use") e ∧
        e.attachment = some a ∧ found = (e.id.text, a.id.text))
      (fun _ s' => ec2.Idles s s' ∧
        (ec2.Willing region → ∀ e, ¬ ec2.Wanted s selector (some "in-use") e)) s
      (resolveEniForDetach region creds selector) := by
  refine ends_found hec2 creds hplain (by simp [Literal]) (fun _ _ hidle hnone => ⟨hidle, hnone⟩)
    fun xml e children s₁ hidle hwanted hshown => ?_
  obtain ⟨count, hcount⟩ := countItems_total xml
  refine (ends_checked_ok hcount).bind ?_
  rintro _ s₁ ⟨rfl, rfl⟩
  refine (ends_required_some hshown.scalar_id).bind ?_
  rintro _ s₁ ⟨rfl, rfl⟩
  obtain ⟨a, ha, hattachment⟩ := hshown.attachmentOf_eq (hwanted.2.2 _ rfl)
  refine (ends_required_some hattachment).bind ?_
  rintro _ s₁ ⟨rfl, rfl⟩
  exact ends_pure ⟨e, a, hidle, hwanted, ha, rfl⟩

/-- A poll finds the status of its interface. -/
theorem ends_poll (eni_id : String) :
    Ends ec2.serve
      (fun xml s' => ec2.Idles s s' ∧
        s' = (ec2.serve (ec2Op region creds (pollParams eni_id)) s).2 ∧
        ∃ status, statusOf xml = .ok status ∧ (ec2.Available s eni_id ↔ status = some "available"))
      (fun _ s' => ec2.Idles s s' ∧
        (ec2.Willing region → ¬ (ec2.eni s eni_id).isSome)) s
      (ec2Query region creds (pollParams eni_id)) := by
  have haction := lookup_pollParams eni_id
  have hmoves := moves_of_describes region creds haction
  refine (ends_ec2Query region creds _).mono ?_ ?_
  · rintro xml s' ⟨hxml, rfl⟩
    refine ⟨idles_serve hmoves, rfl, ?_⟩
    obtain ⟨listed, hlists, hlisted⟩ := hec2.describes creds _ s xml haction hxml
    simp only [described_pollParams hec2] at hlisted
    obtain ⟨rfl, hitem⟩ | ⟨e, enis, children, rfl, hitem, hshown⟩ := hlists.firstItem
    · refine ⟨none, by rw [statusOf, hitem]; rfl, iff_of_false ?_ (by simp)⟩
      rintro ⟨e, he, -⟩
      have hid := ec2.eni_id s eni_id e he
      exact absurd ((hlisted e).mpr ⟨by rw [Ec2.Has, hid, he], hid⟩) List.not_mem_nil
    · obtain ⟨hhas, rfl⟩ := (hlisted e).mp List.mem_cons_self
      refine ⟨some e.status.text, ?_, by rw [hhas.available, Option.some.injEq]⟩
      rw [statusOf, hitem]
      exact hshown.scalar_status
  · rintro _ s' ⟨herror, rfl⟩
    refine ⟨idles_serve hmoves, fun hwilling heni => herror ?_⟩
    refine hwilling.describes creds _ s haction fun id hid => ?_
    have hparams : pollParams eni_id = describeParams (.id eni_id) none := rfl
    rw [hparams, readIds_describeParams] at hid
    obtain rfl : id = eni_id := by simpa [EniSelector.ids] using hid
    exact heni

end Descriptions

section Moves

variable {σ : Type} {ec2 : Ec2 σ} {region instance_id eni_id : String} {s : σ}
  (hec2 : ec2.Documented region instance_id) (creds : AwsCredentials)

include hec2

theorem ends_doAttachEni (to_id : String) (device_index : ℕ) :
    Ends ec2.serve
      (fun _ s' => ec2.Spares eni_id s s' ∧ ¬ ec2.Occupied s eni_id to_id (toString device_index) ∧
        ec2.At s' eni_id to_id (toString device_index))
      (fun _ s' => ec2.Spares eni_id s s' ∧
        (¬ ec2.Occupied s eni_id to_id (toString device_index) ∧
            ec2.At s' eni_id to_id (toString device_index) ∧
            (ec2.Willing region → ¬ ec2.Available s eni_id) ∨
          ec2.held s' eni_id = ec2.held s eni_id ∧
            (ec2.Willing region → ec2.Available s eni_id →
              ec2.Occupied s eni_id to_id (toString device_index)))) s
      (doAttachEni region creds to_id eni_id device_index) := by
  have hread : MoveRequest.read (attachParams to_id eni_id device_index) =
      some (.attach eni_id to_id (toString device_index)) := by
    simp [MoveRequest.read, attachParams, List.lookup_cons]
  have hspares : ec2.Spares eni_id s
      (ec2.serve (ec2Op region creds (attachParams to_id eni_id device_index)) s).2 :=
    spares_attach hread
  have hattaches := hec2.attaches creds _ s eni_id to_id _ hread
  have hwilling := fun h : ec2.Willing region => h.attaches creds _ s eni_id to_id _ hread
  have hfails : ∀ s', s' = (ec2.serve (ec2Op region creds
      (attachParams to_id eni_id device_index)) s).2 →
      ¬ (MoveRequest.attach eni_id to_id (toString device_index)).Confirms
        (ec2.serve (ec2Op region creds (attachParams to_id eni_id device_index)) s).1 →
      ec2.Spares eni_id s s' ∧ (¬ ec2.Occupied s eni_id to_id (toString device_index) ∧
        ec2.At s' eni_id to_id (toString device_index) ∧
            (ec2.Willing region → ¬ ec2.Available s eni_id) ∨
          ec2.held s' eni_id = ec2.held s eni_id ∧
            (ec2.Willing region → ec2.Available s eni_id →
              ec2.Occupied s eni_id to_id (toString device_index))) := by
    rintro s' rfl hno
    refine ⟨hspares, ?_⟩
    rcases hattaches with ⟨hfree, hat⟩ | ⟨-, hkept⟩
    · exact .inl ⟨hfree, hat, fun hw havailable => hno (hwilling hw havailable hfree)⟩
    · exact .inr ⟨hkept, fun hw havailable =>
        of_not_not fun hfree => hno (hwilling hw havailable hfree)⟩
  refine ((ends_ec2Query region creds _).mono (fun _ _ h => h) ?_).bind fun xml s' h => ?_
  · rintro _ s' ⟨herror, hs'⟩
    refine hfails s' hs' ?_
    rintro ⟨xml, id, hxml, -⟩
    exact herror (by rw [hxml]; rfl)
  · obtain ⟨hxml, hs'⟩ := h
    refine ends_required (fun id hid => ?_) fun _ h => hfails s' hs' ?_
    · subst hs'
      exact ⟨hspares, hattaches.resolve_right fun h => h.1 ⟨xml, id, hxml, hid⟩⟩
    · rintro ⟨xml', id, hxml', hid⟩
      obtain rfl : xml = xml' := Except.ok.inj (hxml.symm.trans hxml')
      exact h id hid

/-- The interface was just taken from its holder. -/
structure Ec2.Freed (ec2 : Ec2 σ) (s : σ) (eni_id : String) : Prop where
  held : ec2.held s eni_id = none
  known : ec2.LeftAlone eni_id → (ec2.eni s eni_id).isSome
  available : ∀ δ takes, ec2.Prompt δ takes → ec2.LeftAlone eni_id → ∀ s', ec2.Idles s s' →
    ec2.time s + takes ≤ ec2.time s' → ec2.Available s' eni_id

theorem ends_doDetachEni {a : Attachment} (hheld : ec2.held s eni_id = some a) (force : Bool) :
    Ends ec2.serve (fun _ s' => ec2.Spares eni_id s s' ∧ ec2.Freed s' eni_id)
      (fun _ s' => ec2.Spares eni_id s s' ∧ ¬ ec2.Willing region ∧
        (ec2.held s' eni_id = none ∨ ec2.held s' eni_id = ec2.held s eni_id)) s
      (doDetachEni region creds a.id.text force) := by
  have hread : MoveRequest.read (detachParams a.id.text force) = some (.detach a.id.text) := by
    simp [MoveRequest.read, detachParams, List.lookup_cons]
  have hspares : ec2.Spares eni_id s
      (ec2.serve (ec2Op region creds (detachParams a.id.text force)) s).2 :=
    spares_detach hec2 hheld hread
  have hdetaches := hec2.detaches creds _ s eni_id a hheld hread
  have hfails : ∀ s', s' = (ec2.serve (ec2Op region creds (detachParams a.id.text force)) s).2 →
      ¬ (MoveRequest.detach a.id.text).Confirms
        (ec2.serve (ec2Op region creds (detachParams a.id.text force)) s).1 →
      ec2.Spares eni_id s s' ∧ ¬ ec2.Willing region ∧
        (ec2.held s' eni_id = none ∨ ec2.held s' eni_id = ec2.held s eni_id) := by
    rintro s' rfl hno
    exact ⟨hspares, fun hw => hno (hw.detaches creds _ s eni_id a hheld hread),
      hdetaches.imp_right And.right⟩
  refine ((ends_ec2Query region creds _).mono (fun _ _ h => h) ?_).bind fun xml s' h => ?_
  · rintro _ s' ⟨herror, hs'⟩
    refine hfails s' hs' ?_
    rintro ⟨xml, hxml, -⟩
    exact herror (by rw [hxml]; rfl)
  · obtain ⟨hxml, hs'⟩ := h
    have hunconfirmed : scalar xml "return" ≠ .ok (some "true") →
        ¬ (MoveRequest.detach a.id.text).Confirms
          (ec2.serve (ec2Op region creds (detachParams a.id.text force)) s).1 := by
      rintro hne ⟨xml', hxml', hreturn⟩
      obtain rfl : xml = xml' := Except.ok.inj (hxml.symm.trans hxml')
      exact hne hreturn
    refine Ends.bind (Q := fun value s'' => scalar xml "return" = .ok value ∧ s'' = s')
      (ends_checked (fun value h => ⟨h, rfl⟩) fun _ h => hfails s' hs' (hunconfirmed (h _))) ?_
    rintro value s' ⟨hvalue, rfl⟩
    cases value with
    | none => exact ends_throw (hfails s' hs' (hunconfirmed (by simp [hvalue])))
    | some v =>
      by_cases hv : v = "true"
      · subst hs'
        simp only [hv, if_true]
        have hnone := hdetaches.resolve_right fun h => h.1 ⟨xml, hxml, hv ▸ hvalue⟩
        have hknown : (ec2.eni s eni_id).isSome := Option.isSome_of_isSome_bind
          (by rw [← Ec2.held, hheld, Option.isSome_some])
        exact ends_pure ⟨hspares, hnone, fun halone => halone.stays _ s hknown,
          fun δ takes hprompt halone s' =>
            hprompt.frees (ec2Op region creds (detachParams a.id.text force)) s s' eni_id a halone
              hheld hread hnone⟩
      · simp only [hv, if_false]
        exact ends_throw (hfails s' hs' (hunconfirmed (by simp [hvalue, hv])))

/-- A file that is to hold the address of an interface is written last. -/
theorem ends_writeIpFile (write_ip_file : Option String) (ip : String) :
    Ends ec2.serve
      (fun _ s' => ec2.Idles s s' ∧ ∀ path ∈ write_ip_file, ec2.file s' path = some ip)
      (fun _ s' => ec2.Idles s s' ∧ ¬ ec2.Willing region) s
      (writeIpFile write_ip_file (some ip)) := by
  cases write_ip_file with
  | none => exact ends_pure ⟨.refl, by simp⟩
  | some path =>
    have hparent : Ends ec2.serve (fun _ s' => ec2.Idles s s')
        (fun _ s' => ec2.Idles s s' ∧ ¬ ec2.Willing region) s (createParent path) := by
      unfold createParent
      cases parent path with
      | none => exact ends_pure .refl
      | some dir =>
        refine (ends_call (.createDirAll dir)).bind fun r s' hr => ?_
        obtain ⟨rfl, rfl⟩ := hr
        exact ends_reply (fun _ _ => idles_serve rfl) fun _ herror =>
          ⟨idles_serve rfl, fun hw => herror ((hw.stores s).1 dir)⟩
    refine hparent.bind fun _ s₁ hidle => ?_
    refine (ends_call (.write path ip)).bind fun r s' hr => ?_
    obtain ⟨rfl, rfl⟩ := hr
    have hidle' : ec2.Idles s (ec2.serve (.write path ip) s₁).2 := hidle.trans (idles_serve rfl)
    refine ends_reply (fun _ hok => ⟨hidle', ?_⟩) fun _ herror =>
      ⟨hidle', fun hw => herror ((hw.stores s₁).2 path ip)⟩
    rintro _ ⟨⟩
    exact hec2.writes s₁ path ip hok

end Moves

end Aerosuite.Plug
