import VersionedStore.Proofs.Gateway.Operations
import VersionedStore.Session

/-!
# What a session can do

Everything that a bootstrap can come to, one constructor for each way through it, with what the
gateway loaded on that way and the session that is left.

* `Boots`, `boots_of_bootstrap`: the ways of a bootstrap;
* `Session.persistAll`: states that are handed over one after another.
-/

namespace VersionedStore

variable {σ : Type}

namespace Session

variable {io : Ports σ} {now : Nat} {s s' : Session σ}

def booted (s : Session σ) (g : Gateway σ) (version : Version) : Session σ :=
  { s with bootstrapped := true, gateway := { g with metadata := some version } }

/-- The session after an envelope was taken through its chain. -/
def migrated (s : Session σ) (g : Gateway σ) (e : Envelope) : Session σ :=
  s.booted { g with log := g.log ++ (s.chain.run s.onFault e).2 }
    (s.chain.run s.onFault e).1.envelope.version

/-- **The ways of a bootstrap**, with its outcome and the session it leaves. -/
inductive Boots (io : Ports σ) (now : Nat) (s : Session σ) :
    Except StoreError Outcome → Session σ → Prop
  | again (done : s.bootstrapped = true) : Boots io now s (.error .alreadyBootstrapped) s
  | fresh {g} (new : s.bootstrapped = false) (load : s.gateway.Loads io now .freshInstall g) :
      Boots io now s (.ok (.fresh s.initial s.chain.current)) (s.booted g s.chain.current)
  | corrupted {g} (new : s.bootstrapped = false) (load : s.gateway.Loads io now .corrupted g) :
      Boots io now s (.ok .corrupted) (s.booted g s.chain.current)
  | kept {g e report} (new : s.bootstrapped = false)
      (load : s.gateway.Loads io now (.envelope e) g)
      (run : (s.chain.run s.onFault e).1 = report)
      (same : (report.versionChanged && g.config.writeBack) = false) :
      Boots io now s (.ok (.loaded report none)) (s.migrated g e)
  | writtenBack {g e report p g'} (new : s.bootstrapped = false)
      (load : s.gateway.Loads io now (.envelope e) g)
      (run : (s.chain.run s.onFault e).1 = report)
      (changed : (report.versionChanged && g.config.writeBack) = true)
      (persist : (s.migrated g e).gateway.Persists io (.object report.envelope.data) (.ok p) g') :
      Boots io now s (.ok (.loaded report (some p))) ((s.migrated g e).withGateway g')

theorem settle_eq {g : Gateway σ} (hg : g.metadata = none) (version : Version) (outcome : Outcome) :
    ({ s with bootstrapped := true }.withGateway g).settle version outcome =
      (.ok outcome, s.booted g version) := by
  unfold settle Gateway.setMetadata withGateway
  rw [hg]
  rfl

theorem migrate_eq {g : Gateway σ} (hg : g.metadata = none) (e : Envelope) {report : Report}
    (hrun : (s.chain.run s.onFault e).1 = report) {r : Except StoreError (Option Persisted)}
    (h : (s.migrated g e).writeBack io report = (r, s')) :
    ({ s with bootstrapped := true }.withGateway g).migrate io e =
      (r.map (.loaded report), s') := by
  subst hrun
  unfold migrated booted at h
  unfold migrate Gateway.setMetadata withGateway
  simp only [hg, h]
  cases r <;> rfl

theorem boots_of_migrate {r : Except StoreError Outcome} {g : Gateway σ} {e : Envelope}
    (new : s.bootstrapped = false) (load : s.gateway.Loads io now (.envelope e) g)
    (hg : g.metadata = none)
    (h : ({ s with bootstrapped := true }.withGateway g).migrate io e = (r, s')) :
    s.Boots io now r s' := by
  have hready : (s.migrated g e).gateway.ready = true := by
    rw [← load.ready nofun]
    exact load.frame.2.1
  rcases hw : (s.migrated g e).writeBack io (s.chain.run s.onFault e).1 with ⟨r', s''⟩
  rw [migrate_eq hg e rfl hw] at h
  obtain ⟨rfl, rfl⟩ := Prod.mk.inj h
  unfold writeBack at hw
  cases hchanged :
    (s.chain.run s.onFault e).1.versionChanged && (s.migrated g e).gateway.config.writeBack
  · simp only [hchanged, Bool.false_eq_true, if_false] at hw
    obtain ⟨rfl, rfl⟩ := Prod.mk.inj hw
    exact .kept new load rfl hchanged
  · rcases hp : (s.migrated g e).gateway.persist io
      (.object (s.chain.run s.onFault e).1.envelope.data) with ⟨r', g'⟩
    have hpersists := Gateway.persists_of_persist hp
    have haccepted : ∃ p, r' = .ok p := by
      rcases hpersists.of_ready hready rfl with
        ⟨-, -, -, hr, -⟩ | ⟨-, -, -, -, ⟨-, hr⟩ | ⟨-, hr⟩⟩ <;> exact ⟨_, hr⟩
    obtain ⟨p, rfl⟩ := haccepted
    simp only [hchanged, if_true, hp] at hw
    obtain ⟨rfl, rfl⟩ := Prod.mk.inj hw
    exact .writtenBack new load rfl hchanged hpersists

/-- **Sound:** before its bootstrap a session has no version to write under. -/
def Sound (s : Session σ) : Prop := s.bootstrapped = false → s.gateway.metadata = none

theorem sound_start (io : Ports σ) (chain : Chain) (config : Config) (initial : Object) (world : σ)
    (log : List Diagnostic) : (start io chain config initial world log).Sound :=
  fun _ => (Gateway.start_frame io config world log).2.2.2.2

theorem boots_of_bootstrap {r : Except StoreError Outcome} (hs : s.Sound)
    (h : s.bootstrap io now = (r, s')) : s.Boots io now r s' := by
  unfold bootstrap at h
  cases hnew : s.bootstrapped
  swap
  · rw [if_pos hnew] at h
    obtain ⟨rfl, rfl⟩ := Prod.mk.inj h
    exact .again hnew
  rw [if_neg (by rw [hnew]; nofun)] at h
  unfold loadAndMigrate at h
  rcases hl : s.gateway.load io now with ⟨found, g⟩
  have hloads := Gateway.loads_of_load hl
  have hg : g.metadata = none := by
    rw [hloads.frame.2.2.1]
    exact hs hnew
  dsimp only at h
  cases found with
  | freshInstall =>
    simp only [hl, settle_eq hg] at h
    obtain ⟨rfl, rfl⟩ := Prod.mk.inj h
    exact .fresh hnew hloads
  | corrupted =>
    simp only [hl, settle_eq hg] at h
    obtain ⟨rfl, rfl⟩ := Prod.mk.inj h
    exact .corrupted hnew hloads
  | envelope e =>
    simp only [hl] at h
    exact boots_of_migrate hnew hloads hg h

theorem Boots.of_get {r : Except StoreError Outcome} (h : s.Boots io now r s')
    (new : s.bootstrapped = false) (ready : s.gateway.ready = true)
    (uncorrupted : s.gateway.corrupted = false) {document : Object} {w : σ}
    (hget : io.storage.get none s.gateway.world = (.ok document, w)) {e : Envelope}
    (he : Envelope.ofDocument document = .ok e) {report : Report}
    (hrun : (s.chain.run s.onFault e).1 = report) :
    ((report.versionChanged && s.gateway.config.writeBack) = false ∧ r = .ok (.loaded report none) ∧
        s'.gateway.world = io.markers.markExistence s.gateway.config.existenceKey now w) ∨
      (report.versionChanged && s.gateway.config.writeBack) = true ∧ ∃ answer p,
        io.storage.set report.envelope.toDocument
          (io.markers.markExistence s.gateway.config.existenceKey now w) =
          (answer, s'.gateway.world) ∧
        r = .ok (.loaded report (some p)) ∧
        (answer = .ok () ∧ p = .written ∨ (∃ error, answer = .error error) ∧ p = .failed) := by
  subst hrun
  cases h with
  | again done => rw [done] at new; cases new
  | fresh _ load | corrupted _ load => cases (load.of_get ready hget he).1
  | kept _ load run same =>
    obtain ⟨henvelope, rfl⟩ := load.of_get ready hget he
    obtain rfl := Loaded.envelope.inj henvelope
    exact .inl ⟨run ▸ same, by rw [run], rfl⟩
  | writtenBack _ load run changed persist =>
    obtain ⟨henvelope, rfl⟩ := load.of_get ready hget he
    obtain rfl := Loaded.envelope.inj henvelope
    subst run
    refine .inr ⟨changed, ?_⟩
    rcases persist.of_ready ready rfl with ⟨_, _, shut, -, -⟩ | ⟨answer, w', opened, hset, hanswer⟩
    · cases uncorrupted.symm.trans shut.corrupted
    rcases opened with ⟨-, rfl⟩ | ⟨corrupted, -⟩
    swap
    · cases uncorrupted.symm.trans corrupted
    refine ⟨answer, _, hset, rfl, ?_⟩
    rcases hanswer with ⟨hok, hp⟩ | ⟨herror, hp⟩
    · exact .inl ⟨hok, Except.ok.inj hp⟩
    · exact .inr ⟨herror, Except.ok.inj hp⟩

/-! ### Handing states over -/

/-- The session after states were handed over one after another. -/
def persistAll (io : Ports σ) (s : Session σ) (states : List Value) : Session σ :=
  states.foldl (fun s state => (s.persist io state).2) s

theorem persists_of_persist {state : Value} {r : Except StoreError Persisted}
    (h : s.persist io state = (r, s')) :
    ∃ g, s.gateway.Persists io state r g ∧ s' = s.withGateway g := by
  obtain ⟨rfl, rfl⟩ := Prod.mk.inj h
  exact ⟨_, Gateway.persists_of_persist rfl, rfl⟩

end Session

end VersionedStore
