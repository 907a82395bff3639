import SliceAgent.Proofs.NodeRecords

/-!
Which claim owns a slice. While nothing fails and no device is granted without the engine, the devices
on record are the allocated slices, each of one claim (`Node.Run.agrees`), as long as no claim is
unprepared that holds a card as a whole of which others have slices: that would take theirs too.
-/
namespace SliceAgent.Node

variable {n n₀ : Node} {call : NodeCall} {claim : ResourceClaim} {uid other name : String}

/-- A device is on record exactly if it is an allocated slice, and for one claim only. -/
structure Agrees (n : Node) : Prop where
  recorded : ∀ name, (∃ uid, n.Records uid name) ↔ name ∈ n.engine.allocatedIds
  exclusive : ∀ uid other name, n.Records uid name → n.Records other name → uid = other

/-- Whether a call meets no failure of the checkpoint or of the files, and every device that is granted
by it was allocated by the engine. A claim may still be refused. -/
def Clean (n : Node) : NodeCall → Prop
  | .prepare claim =>
    (∀ e, (n.prepare claim).1 = .error e → ∃ g, e = .grant g) ∧
    ∀ c devices, n.host.readCheckpoint = .ok c → c.find? claim.uid = none →
      (n.prepare claim).1 = .ok devices →
      ClaimAllocated n.cdi.driverName n.claims.sources claim ⟨n.engine, n.inventory, []⟩
  | .unprepare uid => (n.unprepare uid).1 = .ok ()
  | .reconcile => True

def HoldsCardOf (n : Node) (uid name : String) : Prop :=
  ∃ card counter, n.Records uid (SliceId.wholeCard card) ∧ name = SliceId.text ⟨card, counter⟩

/-- Whether a call leaves other claims the cards that they have slices of. -/
def Spares (n : Node) : NodeCall → Prop
  | .unprepare uid => ∀ other name, n.Records other name → n.HoldsCardOf uid name → other = uid
  | _ => True

theorem Agrees.of_same {m : Node} (h : n.Agrees)
    (hids : ∀ id, id ∈ m.engine.allocatedIds ↔ id ∈ n.engine.allocatedIds)
    (hrec : ∀ uid name, m.Records uid name ↔ n.Records uid name) : m.Agrees := by
  refine ⟨fun name => ?_, fun uid other name h₁ h₂ => ?_⟩
  · simp only [hrec, hids, h.recorded]
  · exact h.exclusive uid other name ((hrec uid name).1 h₁) ((hrec other name).1 h₂)

theorem Agrees.prepare (h : n.Agrees) (hs : n.engine.Sound)
    (hmode : n.claims.persistence = .compensating) (hfit : n.Fits (.prepare claim))
    (hclean : n.Clean (.prepare claim)) : (n.prepare claim).2.Agrees := by
  rcases prepare_effect hs hmode hfit with ⟨hids, hstored⟩ |
    ⟨c, devices, hr, hf, hgrant, hok, hids, hfresh, hstored⟩
  · refine h.of_same hids fun uid name => ?_
    rw [Records, Records, hstored]
  · have hcarved := carved_eq hgrant (hclean.2 c devices hr hf hok)
    rw [hcarved] at hids hfresh
    have hold : ∀ {u x}, n.Records u x ↔ c.Records u x :=
      records_of_stored (Host.stored?_of_read hr)
    have hne : ∀ {u x}, n.Records u x → u ≠ claim.uid := by
      rintro u x hrec rfl
      exact Checkpoint.not_records_of_none hf (hold.1 hrec)
    have hrec : ∀ u x, (n.prepare claim).2.Records u x ↔
        (u = claim.uid ∧ x ∈ deviceNames devices) ∨ n.Records u x := by
      intro u x
      rw [records_of_stored hstored, Checkpoint.records_insert, hold]
      exact or_congr Iff.rfl (and_iff_right_of_imp fun hx => hne (hold.2 hx))
    refine ⟨fun name => ?_, fun uid other name h₁ h₂ => ?_⟩
    · rw [hids, ← h.recorded]
      simp only [hrec]
      constructor
      · rintro ⟨u, ⟨_, hname⟩ | hu⟩
        · exact .inr hname
        · exact .inl ⟨u, hu⟩
      · rintro (⟨u, hu⟩ | hname)
        · exact ⟨u, .inr hu⟩
        · exact ⟨claim.uid, .inl ⟨rfl, hname⟩⟩
    · rcases (hrec uid name).1 h₁ with ⟨hu, hname⟩ | hu <;>
        rcases (hrec other name).1 h₂ with ⟨ho, hname'⟩ | ho
      · exact hu.trans ho.symm
      · exact absurd ((h.recorded name).1 ⟨other, ho⟩) (hfresh name hname)
      · exact absurd ((h.recorded name).1 ⟨uid, hu⟩) (hfresh name hname')
      · exact h.exclusive uid other name hu ho

theorem records_unprepare (hs : n.engine.Sound) (hfit : n.Fits (.unprepare uid))
    (hok : (n.unprepare uid).1 = .ok ()) :
    (n.unprepare uid).2.Records other name ↔ other ≠ uid ∧ n.Records other name := by
  rcases unprepare_effect hs hfit with ⟨hsame, hnone⟩ | ⟨c, devices, hr, hf, _, hstored⟩
  · rw [hsame]
    refine (and_iff_right_of_imp fun hrec => ?_).symm
    rintro rfl
    exact hnone hok name hrec
  · rcases hstored with ⟨_, _, hfail, _⟩ | hstored
    · cases hok.symm.trans hfail
    · rw [records_of_stored hstored, Checkpoint.records_erase,
        records_of_stored (Host.stored?_of_read hr)]

theorem Agrees.mem_unprepare (h : n.Agrees) (hs : n.engine.Sound) (hfit : n.Fits (.unprepare uid))
    (hok : (n.unprepare uid).1 = .ok ()) : name ∈ (n.unprepare uid).2.engine.allocatedIds ↔
      ∃ other, other ≠ uid ∧ n.Records other name ∧ ¬ n.HoldsCardOf uid name := by
  rcases unprepare_effect hs hfit with ⟨hsame, hnone⟩ | ⟨c, devices, hr, hf, hids, _⟩
  · rw [hsame, ← h.recorded]
    constructor
    · rintro ⟨other, hrec⟩
      refine ⟨other, ?_, hrec, fun ⟨card, _, hheld, _⟩ => hnone hok _ hheld⟩
      rintro rfl
      exact hnone hok name hrec
    · rintro ⟨other, _, hrec, _⟩
      exact ⟨other, hrec⟩
  · have hheld : ∀ x, n.Records uid x ↔ x ∈ deviceNames devices := fun x =>
      (records_of_stored (Host.stored?_of_read hr)).trans (Checkpoint.records_of_find? hf)
    -- what is released is covered by a device of the claim: by itself, or by the whole card
    rw [hids, ← h.recorded]
    constructor
    · rintro ⟨⟨other, hrec⟩, hcov⟩
      refine ⟨other, ?_, hrec, ?_⟩
      · rintro rfl
        exact hcov name ((hheld name).1 hrec) (SliceId.covers_self name)
      · rintro ⟨card, counter, hcard, rfl⟩
        exact hcov _ ((hheld _).1 hcard) (.inr ⟨card, counter, rfl, rfl⟩)
    · rintro ⟨other, hne, hrec, hcard⟩
      refine ⟨⟨other, hrec⟩, fun x hx hcov => ?_⟩
      rcases hcov with rfl | ⟨card, counter, rfl, rfl⟩
      · exact hne (h.exclusive other uid name hrec ((hheld name).2 hx))
      · exact hcard ⟨card, counter, (hheld _).2 hx, rfl⟩

theorem Agrees.unprepare_iff (h : n.Agrees) (hs : n.engine.Sound) (hfit : n.Fits (.unprepare uid))
    (hok : (n.unprepare uid).1 = .ok ()) :
    (n.unprepare uid).2.Agrees ↔ n.Spares (.unprepare uid) := by
  constructor
  · intro hm other name hrec hcard
    refine Classical.not_not.1 fun hne => ?_
    have hkept := (records_unprepare hs hfit hok).2 ⟨hne, hrec⟩
    obtain ⟨_, _, _, hno⟩ := (h.mem_unprepare hs hfit hok).1 ((hm.recorded name).1 ⟨other, hkept⟩)
    exact hno hcard
  · intro hspares
    refine ⟨fun name => ?_, fun u o name h₁ h₂ => ?_⟩
    · simp only [records_unprepare hs hfit hok, h.mem_unprepare hs hfit hok]
      refine exists_congr fun other => and_congr_right fun hne => ?_
      exact (and_iff_left_of_imp fun hrec hcard => hne (hspares other name hrec hcard)).symm
    · exact h.exclusive u o name ((records_unprepare hs hfit hok).1 h₁).2
        ((records_unprepare hs hfit hok).1 h₂).2

theorem Agrees.perform (h : n.Agrees) (hs : n.engine.Sound)
    (hmode : n.claims.persistence = .compensating) (hfit : n.Fits call) (hclean : n.Clean call)
    (hspares : n.Spares call) : (n.perform call).Agrees := by
  cases call with
  | prepare claim => exact h.prepare hs hmode hfit hclean
  | unprepare uid => exact (h.unprepare_iff hs hfit hclean).2 hspares
  | reconcile => exact h.of_same (fun _ => Iff.rfl) (fun _ _ => Iff.rfl)

theorem agrees_of_empty {c : Checkpoint} (hstored : n.host.stored? = some c)
    (hempty : c.claims = Dict.empty) (hfree : n.engine.AllFree) : n.Agrees := by
  have hnone : ∀ uid name, ¬ n.Records uid name := by
    intro uid name hrec
    refine Checkpoint.not_records_of_none (c := c) ?_ ((records_of_stored hstored).1 hrec)
    rw [Checkpoint.find?, hempty]
    rfl
  refine ⟨fun name => ?_, fun uid other name hrec => absurd hrec (hnone uid name)⟩
  rw [hfree.allocatedIds_eq]
  constructor
  · rintro ⟨uid, hrec⟩
    exact absurd hrec (hnone uid name)
  · exact fun hid => absurd hid List.not_mem_nil

theorem Run.agrees {allowed : Node → NodeCall → Prop} (hrun : n₀.Run allowed n)
    (hallowed : ∀ m c, allowed m c → m.Clean c ∧ m.Spares c) (h₀ : Holds n₀ n₀) (h : n₀.Agrees)
    (hmode : n₀.claims.persistence = .compensating) : n.Agrees := by
  induction hrun with
  | start => exact h
  | disturb files faults _ ih => exact ih.of_same (fun _ => Iff.rfl) (fun _ _ => Iff.rfl)
  | call call hrun hfit hcall ih =>
    have hn := hrun.holds h₀
    obtain ⟨hclean, hspares⟩ := hallowed _ call hcall
    exact ih.perform hn.sound (hn.claims ▸ hmode) hfit hclean hspares

theorem Run.mono {allowed allowed' : Node → NodeCall → Prop} (hrun : n₀.Run allowed n)
    (h : ∀ m c, allowed m c → allowed' m c) : n₀.Run allowed' n := by
  induction hrun with
  | start => exact .start
  | disturb files faults _ ih => exact .disturb files faults ih
  | call call _ hfit hcall ih => exact .call call ih hfit (h _ call hcall)

theorem Run.unprepare {allowed : Node → NodeCall → Prop} (hrun : n₀.Run allowed n)
    (hfit : n.Fits (.unprepare uid)) (h : allowed n (.unprepare uid)) :
    n₀.Run allowed (n.unprepare uid).2 := hrun.call _ hfit h

/-- From a start with nothing on record, in compensating mode and without failures, fallback or restart:
the devices on record are the allocated slices, each of one claim, at every state that is reached
without a claim giving up a card that others have slices of. From such a state, to unprepare a claim
leaves allocated the slices of the others, less those on cards of which the claim held the whole; so
the agreement is kept exactly if there are none of these. -/
theorem Run.agrees_while_spared {s : NodeSetup} {host : Host} {c : Checkpoint}
    (hstart : s.Starts host n₀) (hmode : s.claims.persistence = .compensating)
    (hstored : n₀.host.stored? = some c) (hempty : c.claims = Dict.empty)
    (hrun : n₀.Run (fun m call => m.Clean call ∧ m.Spares call) n) :
    n.Agrees ∧ ∀ uid, n.Fits (.unprepare uid) → (n.unprepare uid).1 = .ok () →
      (∀ name, name ∈ (n.unprepare uid).2.engine.allocatedIds ↔
        ∃ other, other ≠ uid ∧ n.Records other name ∧ ¬ n.HoldsCardOf uid name) ∧
      ((n.unprepare uid).2.Agrees ↔ n.Spares (.unprepare uid)) := by
  obtain ⟨h₀, hfree, _, _, hclaims⟩ := hstart.holds
  have hagrees := hrun.agrees (fun _ _ h => h) h₀ (agrees_of_empty hstored hempty hfree)
    (hclaims ▸ hmode)
  have hsound := (hrun.holds h₀).sound
  exact ⟨hagrees, fun uid hfit hok => ⟨fun name => hagrees.mem_unprepare hsound hfit hok,
    hagrees.unprepare_iff hsound hfit hok⟩⟩

section Sample

def sampleRestDevices : List PreparedDevice :=
  ((sampleCarved.granting (sampleClaim "c-2" "npu-0-1")).1.toOption).getD []

def sampleShared : Node :=
  sampleCarved.prepared (sampleClaim "c-2" "npu-0-1") sampleRecord sampleRestDevices

theorem sampleRecord_rest : sampleRecord.find? "c-2" = none :=
  (Dict.find?_insert ..).trans (if_neg (by decide))

theorem sampleCarved_prepare : sampleCarved.prepare (sampleClaim "c-2" "npu-0-1") =
    (.ok sampleRestDevices, sampleShared) :=
  prepare_ok sampleCarved_read sampleRecord_rest (ok_of_toOption (by decide +kernel))
    (ok_of_toOption (by decide +kernel)) rfl

theorem clean_of_prepare {m : Node} {devices : List PreparedDevice}
    (hp : n.prepare claim = (.ok devices, m))
    (hall : ClaimAllocated n.cdi.driverName n.claims.sources claim ⟨n.engine, n.inventory, []⟩) :
    n.Clean (.prepare claim) := by
  refine ⟨fun e he => ?_, fun _ _ _ _ _ => hall⟩
  rw [hp] at he
  cases he

theorem sampleShared_run :
    sampleStart.Run (fun m call => m.Clean call ∧ m.Spares call) sampleShared := by
  have hfit : sampleStart.Fits (.prepare (sampleClaim "c-1" "npu-0-0")) :=
    fits_prepare sampleStart_read rfl (congrArg Prod.fst sampleStart_prepare) (by decide +kernel)
  have hclean := clean_of_prepare sampleStart_prepare (by decide +kernel)
  have hstart : sampleStart.Run (fun m call => m.Clean call ∧ m.Spares call) sampleStart := .start
  have hrun := hstart.call _ hfit ⟨hclean, trivial⟩
  rw [perform, sampleStart_prepare] at hrun
  have hfit' : sampleCarved.Fits (.prepare (sampleClaim "c-2" "npu-0-1")) :=
    fits_prepare sampleCarved_read sampleRecord_rest (congrArg Prod.fst sampleCarved_prepare)
      (by decide +kernel)
  have hclean' := clean_of_prepare sampleCarved_prepare (by decide +kernel)
  have hrun' := hrun.call _ hfit' ⟨hclean', trivial⟩
  rwa [perform, sampleCarved_prepare] at hrun'

theorem Run.agrees_while_spared_shared : sampleSetup.Starts sampleHost sampleStart ∧
    sampleStart.Run (fun m call => m.Clean call ∧ m.Spares call) sampleShared ∧
    sampleShared.engine.allocatedIds = ["npu-0-0", "npu-0-1"] ∧ sampleShared.Agrees :=
  ⟨sampleStart_starts, sampleShared_run, by decide +kernel,
    (Run.agrees_while_spared sampleStart_starts rfl (Host.stored?_of_read sampleStart_read) rfl
      sampleShared_run).1⟩

theorem sampleShared_read : sampleShared.host.readCheckpoint =
    .ok (sampleRecord.insert "c-2" sampleRestDevices) :=
  (Host.readCheckpoint_of_no_faults rfl).trans (CheckpointStore.get_put ..)

theorem sampleShared_find? : (sampleRecord.insert "c-2" sampleRestDevices).find? "c-1" =
    some sampleDevices :=
  (Dict.find?_insert ..).trans ((if_neg (by decide)).trans
    sampleRecord_find?)

theorem sampleShared_unprepare : (sampleShared.unprepare "c-1").1 = .ok () := by
  refine unprepare_ok sampleShared_read rfl (ok_of_toOption ?_)
  decide +kernel

theorem sampleShared_not_spares : ¬ sampleShared.Spares (.unprepare "c-1") := by
  have hrecords : ∀ {uid name}, sampleShared.Records uid name ↔
      (sampleRecord.insert "c-2" sampleRestDevices).Records uid name :=
    records_of_stored (Host.stored?_of_read sampleShared_read)
  have hwhole : sampleShared.Records "c-1" (SliceId.wholeCard 0) :=
    hrecords.2 ((Checkpoint.records_of_find? sampleShared_find?).2 (by decide +kernel))
  have hpiece : sampleShared.Records "c-2" (SliceId.text ⟨0, 1⟩) :=
    hrecords.2 (Checkpoint.records_insert.2 (.inl ⟨rfl, by decide +kernel⟩))
  intro h
  exact absurd (h "c-2" _ hpiece ⟨0, 1, hwhole, rfl⟩) (by decide)

/-- The agreement is lost if the first of the claims that share a card is unprepared. -/
theorem not_agrees_of_clean : ¬ ∀ (s : NodeSetup) (host : Host) (n₀ n : Node) (c : Checkpoint),
    s.Starts host n₀ → s.claims.persistence = .compensating → n₀.host.stored? = some c →
    c.claims = Dict.empty → n₀.Run Clean n → n.Agrees := by
  intro h
  have hstored := Host.stored?_of_read sampleStart_read
  obtain ⟨h₀, hfree, _⟩ := sampleStart_starts.holds
  have hagrees := sampleShared_run.agrees (fun _ _ h => h) h₀ (agrees_of_empty hstored rfl hfree) rfl
  have hfit : sampleShared.Fits (.unprepare "c-1") := by
    rw [Fits, engineCalls_unprepare sampleShared_read sampleShared_find?]
    decide +kernel
  have hrun := (sampleShared_run.mono fun _ _ h => h.1).unprepare hfit sampleShared_unprepare
  have hafter := h sampleSetup sampleHost _ _ _ sampleStart_starts rfl hstored rfl hrun
  exact sampleShared_not_spares ((hagrees.unprepare_iff (sampleShared_run.holds h₀).sound hfit
    sampleShared_unprepare).1 hafter)

end Sample

end SliceAgent.Node
