import VersionedStore.Proofs.Migration.Shipped
import VersionedStore.Proofs.Migration.Unchanged
import VersionedStore.Proofs.Session.Operations
import VersionedStore.Proofs.Storage.Envelopes
import VersionedStore.Tool.Run

/-!
# Migrations that went well

A migration of a store that holds an envelope ends well if it was written back, and if there was
nothing to write back.  The second is also so where the run halted: then the store is as old as
before, and yet it is called up to date.

* `migrate_cases`: the ways of a migration, with what is printed and the tree that is left;
* `migrated`: the document that a migration writes, on a device that takes it;
* `success_is_truthful_unless_halted`: what the store holds after a migration that ended well;
* `halted_migration_is_called_up_to_date`: a store that is called up to date and is not.
-/

namespace VersionedStore.Tool

open FileStorage

variable {store : Path} {markers config : Option Path} {now : Nat} {t : FileTree} {c : Config}
  {e : Envelope}

def reportLines (r : Report) : List String := migratedLine r :: r.faults.map faultLine

/-! ### The session of a migration -/

def migrationPorts (store : Path) (markers : Option Path) (dryRun : Bool) : Ports FileTree :=
  ports store (markers.getD (markersBeside store)) dryRun

/-- The session of a migration, before its bootstrap. -/
def migrationStart (store : Path) (markers : Option Path) (dryRun : Bool) (c : Config)
    (t : FileTree) : Session FileTree :=
  Session.start (migrationPorts store markers dryRun) .shipped
    { c with writeBack := !dryRun } [] t []

theorem migrate_of_bootstrap (hconfig : (config.map (Config.ofFile t)).getD (.ok {}) = .ok c)
    {dryRun : Bool} {r : Except StoreError Outcome} {s : Session FileTree}
    (h : (migrationStart store markers dryRun c t).bootstrap
      (migrationPorts store markers dryRun) now = (r, s)) :
    (migrate store markers config dryRun now t).2 = s.gateway.world ∧
      ∀ outcome, r = .ok outcome →
        (migrate store markers config dryRun now t).1 = describe store dryRun outcome := by
  unfold migrationStart migrationPorts at h
  unfold migrate
  rw [hconfig]
  simp only [h]
  rcases r with e | outcome
  · exact ⟨rfl, by rintro _ ⟨⟩⟩
  · refine ⟨rfl, fun o ho => ?_⟩
    obtain rfl := Except.ok.inj ho
    rfl

theorem sound_migrationStart (store : Path) (markers : Option Path) (dryRun : Bool) (c : Config)
    (t : FileTree) : (migrationStart store markers dryRun c t).Sound :=
  Session.sound_start _ _ _ _ _ _

theorem migrationStart_frame (store : Path) (markers : Option Path) (dryRun : Bool) (c : Config)
    (t : FileTree) :
    let g := (migrationStart store markers dryRun c t).gateway
    g.config = { c with writeBack := !dryRun } ∧ g.ready = (isAvailable store t).1 ∧
      g.world = (isAvailable store t).2 ∧ g.corrupted = false := by
  obtain ⟨hconfig, hready, hworld, hcorrupted, -⟩ :=
    Gateway.start_frame (migrationPorts store markers dryRun) { c with writeBack := !dryRun } t []
  exact ⟨hconfig, hready, hworld, hcorrupted⟩

/-! ### Migrations that write -/

/-- The tree of a migration once its store was seen: the existence is marked. -/
def marked (markers : Option Path) (store : Path) (c : Config) (now : Nat) (t : FileTree) :
    FileTree :=
  (FileMarkers.markers (markers.getD (markersBeside store))).markExistence c.existenceKey now t

/-- The document that a migration writes, if it writes any. -/
def migrated (markers : Option Path) (store : Path) (c : Config) (now : Nat) (t : FileTree)
    (e : Envelope) : Object :=
  (base store (marked markers store c now t)).merge
    (Chain.shipped.run c.onFault e).1.envelope.toDocument

/-- **The ways of a migration** of a store that holds an envelope: there is nothing to write back;
or it is written back; or that fails.  The existence was marked before. -/
theorem migrate_cases (markers : Option Path) (now : Nat)
    (hconfig : (config.map (Config.ofFile t)).getD (.ok {}) = .ok c) (h : HoldsEnvelope store t e) :
    let report := (Chain.shipped.run c.onFault e).1
    let seen := marked markers store c now t
    let ending := migrate store markers config false now t
    (report.versionChanged = false ∧
        ending = (success (reportLines report ++ ["Already up to date"]), seen)) ∨
      (report.versionChanged = true ∧
        (storage store).set report.envelope.toDocument seen = (.ok (), ending.2) ∧
        ending.1 = success (reportLines report ++ ["Written back to " ++ store.text])) ∨
      (report.versionChanged = true ∧
        (∃ error, (storage store).set report.envelope.toDocument seen = (.error error, ending.2)) ∧
        ending.1 = failure (reportLines report) "Write back did not complete: Failed") := by
  intro report seen ending
  have havailable := h.isAvailable
  obtain ⟨document, hdocument, hdecode⟩ := h
  obtain ⟨hkept, hready, hworld, hcorrupted⟩ := migrationStart_frame store markers false c t
  rw [havailable] at hready hworld
  have hget : (migrationPorts store markers false).storage.get none
      (migrationStart store markers false c t).gateway.world = (.ok document, t) := by
    rw [hworld]
    show ((readDocument store t).map id, t) = _
    rw [hdocument]
    rfl
  rcases hb : (migrationStart store markers false c t).bootstrap
    (migrationPorts store markers false) now with ⟨r, s⟩
  have hboots := Session.boots_of_bootstrap (sound_migrationStart store markers false c t) hb
  have hways := hboots.of_get rfl hready hcorrupted hget hdecode rfl
  rw [hkept] at hways
  obtain ⟨hafter, hprinted⟩ : ending.2 = _ ∧ _ := migrate_of_bootstrap hconfig hb
  rcases hways with ⟨hsame, hr, hmarked⟩ | ⟨hchanged, answer, p, hset, hr, hanswer⟩
  · rw [Bool.not_false, Bool.and_true] at hsame
    exact .inl ⟨hsame, Prod.ext (hprinted _ hr) (hafter.trans hmarked)⟩
  rw [Bool.not_false, Bool.and_true] at hchanged
  rw [← hafter] at hset
  rcases hanswer with ⟨rfl, rfl⟩ | ⟨⟨error, rfl⟩, rfl⟩
  · exact .inr (.inl ⟨hchanged, hset, hprinted _ hr⟩)
  · exact .inr (.inr ⟨hchanged, ⟨error, hset⟩, hprinted _ hr⟩)

theorem ended_well {result : Result} {after : FileTree} {report : Report}
    (hconfig : (config.map (Config.ofFile t)).getD (.ok {}) = .ok c)
    (hstore : HoldsEnvelope store t e)
    (hkeeps : (Chain.shipped.run c.onFault e).1.versionChanged = true →
      t.Sound ∧ (Value.object (migrated markers store c now t e)).DoublesReadBack)
    (hrun : migrate store markers config false now t = (result, after)) (hcode : result.code = 0)
    (hreport : (Chain.shipped.run c.onFault e).1 = report) :
    let overwritten :=
      FileMarkers.RecordsOver (markers.getD (markersBeside store)) c.existenceKey now t store
    result = success (reportLines report ++
        [if report.versionChanged then "Written back to " ++ store.text else
          "Already up to date"]) ∧
      (report.versionChanged = true ∨ ¬ overwritten → HoldsEnvelope store after report.envelope) ∧
      (report.versionChanged = false ∧ overwritten → ∀ e', ¬ HoldsEnvelope store after e') := by
  intro overwritten
  subst hreport
  have hways := migrate_cases markers now hconfig hstore
  rw [hrun] at hways
  rcases hways with ⟨hsame, heq⟩ | ⟨hchanged, hset, hresult⟩ | ⟨-, -, hresult⟩
  · obtain ⟨rfl, rfl⟩ := Prod.mk.inj heq
    refine ⟨?_, fun hkept => ?_, fun hlost =>
      FileMarkers.not_holdsEnvelope_markExistence hstore hlost.2⟩
    · rw [hsame, if_neg nofun]
    · rw [(Chain.run_unchanged hsame).1]
      refine FileMarkers.holdsEnvelope_markExistence hstore (hkept.resolve_left ?_)
      rw [hsame]
      nofun
  · refine ⟨?_, fun _ => ?_, fun hlost => ?_⟩
    · rw [if_pos hchanged]
      exact hresult
    · obtain ⟨hsound, hdoubles⟩ := hkeeps hchanged
      exact holdsEnvelope_of_set hset (FileMarkers.sound_markExistence hsound _ _ _)
        (Chain.fits_run_shipped c.onFault hstore.fits) hdoubles
    · cases hlost.1.symm.trans hchanged
  · rw [show result = _ from hresult] at hcode
    cases hcode

/-- **Success is truthful unless the run halted,** but for a marker that goes over the store.  If
there is a document to write, the device takes it, and its doubles are read back.  A migration that
ends well over a store with an envelope calls it up to date if there was nothing to do, and also if
the run halted.  What the store then holds is what the run came to, unless there was nothing to
write back and the marker of the first sight went over the store; then it holds nothing.  So the
store is at the version of the schema if and only if the run did not halt and the store is not lost
in this way. -/
theorem success_is_truthful_unless_halted {result : Result} {after : FileTree}
    (hconfig : (config.map (Config.ofFile t)).getD (.ok {}) = .ok c)
    (hstore : HoldsEnvelope store t e)
    (hkeeps : (Chain.shipped.run c.onFault e).1.versionChanged = true →
      t.Sound ∧ (Value.object (migrated markers store c now t e)).DoublesReadBack)
    (hrun : migrate store markers config false now t = (result, after)) (hcode : result.code = 0) :
    let report := (Chain.shipped.run c.onFault e).1
    let overwritten :=
      FileMarkers.RecordsOver (markers.getD (markersBeside store)) c.existenceKey now t store
    result = success (reportLines report ++
        [if report.versionChanged then "Written back to " ++ store.text else
          "Already up to date"]) ∧
      (report.versionChanged = false ↔ Chain.shipped.current ≤ e.version ∨ report.halted = true) ∧
      (report.versionChanged = true ∨ ¬ overwritten → HoldsEnvelope store after report.envelope) ∧
      (report.versionChanged = false ∧ overwritten → ∀ e', ¬ HoldsEnvelope store after e') ∧
      ((∃ e', HoldsEnvelope store after e' ∧ Chain.shipped.current ≤ e'.version) ↔
        report.halted = false ∧ (report.versionChanged = true ∨ ¬ overwritten)) := by
  intro report overwritten
  obtain ⟨hresult, hkept, hlost⟩ := ended_well hconfig hstore hkeeps hrun hcode rfl
  have hreached := Chain.current_le_run_shipped_iff c.onFault e
  refine ⟨hresult, Chain.versionChanged_shipped_iff c.onFault e, hkept, hlost,
    fun ⟨e', hheld, hle⟩ => ?_,
    fun ⟨hhalted, hnot⟩ => ⟨report.envelope, hkept hnot, hreached.mpr hhalted⟩⟩
  have hnot : report.versionChanged = true ∨ ¬ overwritten := by
    by_contra h
    obtain ⟨hsame, hover⟩ := not_or.mp h
    exact hlost ⟨eq_false_of_ne_true hsame, not_not.mp hover⟩ e' hheld
  rw [hheld.unique (hkept hnot)] at hle
  exact ⟨hreached.mp hle, hnot⟩

/-! ### Two stores -/

theorem noConfig (t : FileTree) :
    ((none : Option Path).map (Config.ofFile t)).getD (.ok {}) = .ok ({} : Config) := rfl

/-- The file of an envelope, in an empty directory. -/
def storeOf (e : Envelope) : FileTree :=
  { entries := [(["state.json"], .file (print e.toDocument))] }

theorem holdsEnvelope_storeOf (ho : (Value.object e.data).Ordered)
    (hd : (Value.object e.data).DoublesReadBack)
    (hdepth : (Value.object e.data).depth < Json.maxDepth) :
    HoldsEnvelope (.ofString "state.json") (storeOf e) e :=
  holdsEnvelope_of_read rfl (readsBack_toDocument ho hd hdepth)

theorem sound_storeOf (e : Envelope) : (storeOf e).Sound := by rintro _ ⟨⟩

theorem not_recordsOver_storeOf (e : Envelope) (now : Nat) :
    ¬ FileMarkers.RecordsOver (markersBeside (.ofString "state.json")) "state_existed" now
      (storeOf e) (.ofString "state.json") := by
  rintro ⟨-, -, t₁, hm, hplace⟩
  have hmade :
      (storeOf e).makeParent ((markersBeside (.ofString "state.json")).child "state_existed") =
      (.ok (), (storeOf e).put [".markers"] .directory) := rfl
  obtain rfl := (Prod.mk.inj (hmade.symm.trans hm)).2
  have hstore : ((storeOf e).put [".markers"] .directory).locate (.ofString "state.json") =
      .ok (.named [] "state.json" false) := rfl
  rw [hstore] at hplace
  rcases hplace with hplace | ⟨hplace, -⟩ <;> cases hplace

/-- A state that has a controller of permissions, and no site. -/
def noSites : Object := [("PermissionController", .object [("subjects", .object [])])]

theorem ordered_noSites : (Value.object noSites).Ordered :=
  Value.ordered_singleton (Value.ordered_singleton
    (Value.ordered_object List.Pairwise.nil (by simp)))

theorem doublesReadBack_noSites : (Value.object noSites).DoublesReadBack := by
  refine Value.doublesReadBack_object fun x hx => ?_
  rw [List.mem_singleton.mp hx]
  refine Value.doublesReadBack_object fun y hy => ?_
  rw [List.mem_singleton.mp hy]
  exact Value.doublesReadBack_object (by simp)

/-- A store of the version before is brought up to date and written back. -/
theorem success_is_truthful_unless_halted_migrated :
    let ending := migrate (.ofString "state.json") none none false 5 (storeOf ⟨112, noSites⟩)
    ending.1 =
        success ["Migrated 112 -> 113 (applied: [113])", "Written back to state.json"] ∧
      HoldsEnvelope (.ofString "state.json") ending.2 ⟨113, noSites⟩ := by
  intro ending
  have hreport : (Chain.shipped.run .halt ⟨112, noSites⟩).1 =
      ⟨⟨113, noSites⟩, 112, [113], [], false⟩ := by
    unfold Chain.run
    rw [Chain.pending_shipped]
    rfl
  have hstore : HoldsEnvelope (.ofString "state.json") (storeOf ⟨112, noSites⟩) ⟨112, noSites⟩ :=
    holdsEnvelope_storeOf ordered_noSites doublesReadBack_noSites (by decide)
  -- the document from before is merged with that of the new version
  have hbase : base (.ofString "state.json")
      (marked none (.ofString "state.json") {} 5 (storeOf ⟨112, noSites⟩)) =
        Envelope.toDocument ⟨112, noSites⟩ := by decide +kernel
  have hdoubles : (Value.object (migrated none (.ofString "state.json") {} 5
      (storeOf ⟨112, noSites⟩) ⟨112, noSites⟩)).DoublesReadBack := by
    unfold migrated
    rw [hreport]
    refine doublesReadBack_merge doublesReadBack_noSites ?_
    rw [hbase]
    exact doublesReadBack_toDocument doublesReadBack_noSites
  have hcode : ending.1.code = 0 := by decide +kernel
  have htruthful := success_is_truthful_unless_halted (noConfig _) hstore
    (fun _ => ⟨sound_storeOf _, hdoubles⟩) rfl hcode
  rw [hreport] at htruthful
  exact ⟨htruthful.1, htruthful.2.2.1 (.inl rfl)⟩

/-- **A store that is called up to date and is not:** the state has no controller of permissions, so
the migration fails and the run halts.  The store stays at version 112. -/
theorem halted_migration_is_called_up_to_date :
    HoldsEnvelope (.ofString "state.json") (storeOf ⟨112, []⟩) ⟨112, []⟩ ∧
      (migrate (.ofString "state.json") none none false 5 (storeOf ⟨112, []⟩)).1 =
        success ["Migrated 112 -> 112 (applied: [])",
          "- fault at 113: typeof state.PermissionController is undefined", "Already up to date"] ∧
      (∀ e', HoldsEnvelope (.ofString "state.json")
        (migrate (.ofString "state.json") none none false 5 (storeOf ⟨112, []⟩)).2 e' →
          e'.version < Chain.shipped.current) := by
  have hreport : (Chain.shipped.run .halt ⟨112, []⟩).1 = ⟨⟨112, []⟩, 112, [],
      [⟨113, "typeof state.PermissionController is undefined"⟩], true⟩ := by
    unfold Chain.run
    rw [Chain.pending_shipped]
    rfl
  have hstore : HoldsEnvelope (.ofString "state.json") (storeOf ⟨112, []⟩) ⟨112, []⟩ :=
    holdsEnvelope_storeOf fits_nil.ordered (Value.doublesReadBack_object (by simp)) (by decide)
  have hways := migrate_cases none 5 (noConfig (storeOf ⟨112, []⟩)) hstore
  rw [hreport] at hways
  rcases hways with ⟨-, heq⟩ | ⟨hchanged, -⟩ | ⟨hchanged, -⟩
  · rw [heq]
    refine ⟨hstore, rfl, fun e' hheld => ?_⟩
    rw [hheld.unique (FileMarkers.holdsEnvelope_markExistence hstore (not_recordsOver_storeOf _ 5))]
    decide
  · cases hchanged
  · cases hchanged

end VersionedStore.Tool
