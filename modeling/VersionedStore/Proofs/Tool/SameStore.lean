import VersionedStore.Proofs.Markers.Confinement
import VersionedStore.Proofs.Session.MarkerKeys
import VersionedStore.Proofs.Tool.DryRun
import VersionedStore.Proofs.Tool.Output

/-!
# Two looks at one store

The store can be shown, and a migration of it can be tried out.  The first takes the document by
itself, the second by way of a whole session, and what they tell agrees: nothing is stored, or an
envelope of some version, or what is stored is no envelope.

The second asks for a marker where nothing is stored, and the path of the marker is longer than the
path of the store.  Where it is too long for a file, a loss cannot be ruled out.

* `Unmarked`: a directory for the store, without markers;
* `inspect_of_..`, `dry_run_of_..`: what each command tells of each kind of store;
* `looks_agree`: the two commands, for every argument;
* `no_room_for_marker`: a store whose marker has too long a path.
-/

namespace VersionedStore

theorem FileMarkers.nul_of_isKey {key : String} (h : isKey key = true) :
    key.toList.any (· = '\x00') = false := by
  unfold isKey at h
  simp only [Bool.and_eq_true, Bool.not_eq_true', List.all_eq_true] at h
  obtain ⟨⟨⟨-, hall⟩, -⟩, -⟩ := h
  refine List.any_eq_false.mpr fun c hc hnul => ?_
  obtain rfl : c = '\x00' := of_decide_eq_true hnul
  exact absurd (hall _ hc) (by decide)

/-! ### Loads of what is no envelope -/

theorem Gateway.Loads.eq_corrupted {σ : Type} {io : Ports σ} {now : Nat} {g g' : Gateway σ}
    {found : Loaded} (load : g.Loads io now found g') (ready : g.ready = true)
    {answer : Except StoreError Object} {w : σ}
    (hget : io.storage.get none g.world = (answer, w))
    (hbad : ∀ document, answer = .ok document → document ≠ [] ∧
      ∀ e, Envelope.ofDocument document ≠ .ok e) :
    found = .corrupted := by
  have hanswer {answer' : Except StoreError Object} {w' : σ}
      (read : io.storage.get none g.world = (answer', w')) : answer = answer' :=
    (Prod.mk.inj (hget.symm.trans read)).1
  cases load with
  | unsupported unready => cases ready.symm.trans unready
  | fresh _ read => exact absurd rfl (hbad _ (hanswer read)).1
  | decoded _ read _ decode => exact absurd decode ((hbad _ (hanswer read)).2 _)
  | unreadable | lost | unmarked | undecoded => rfl

namespace Tool

open FileStorage StoreError

variable {store : Path} {now : Nat} {t : FileTree} {e : Envelope}

/-! ### The store is shown -/

/-- The store is there and is no envelope, or it cannot be read. -/
def Unusable (store : Path) (t : FileTree) : Prop :=
  ∀ document, readDocument store t = .ok document →
    document ≠ [] ∧ ∀ e, Envelope.ofDocument document ≠ .ok e

theorem store_cases (store : Path) (t : FileTree) : readDocument store t = .ok [] ∨
    (∃ e, HoldsEnvelope store t e) ∨ Unusable store t := by
  rcases hread : readDocument store t with error | document
  · exact .inr (.inr fun document h => by cases hread.symm.trans h)
  by_cases hnone : document = []
  · exact .inl (by rw [hnone])
  rcases hdecode : Envelope.ofDocument document with error | e
  · refine .inr (.inr fun document' h => ?_)
    obtain rfl := Except.ok.inj (hread.symm.trans h)
    exact ⟨hnone, fun e he => by cases hdecode.symm.trans he⟩
  · exact .inr (.inl ⟨e, document, hread, hdecode⟩)

theorem inspect_of_nothing (h : readDocument store t = .ok []) :
    inspect store t = success ["Store: " ++ store.text, "No state stored"] := by
  unfold inspect
  rw [h]
  rfl

theorem inspect_of_envelope (h : HoldsEnvelope store t e) : ∃ controllers, inspect store t =
    success
      (["Store: " ++ store.text, "Schema version: " ++ versionText e.version] ++ controllers) := by
  obtain ⟨document, hread, he⟩ := h
  have hne : document.isEmpty = false := by
    cases document with
    | nil => cases he
    | cons => rfl
  unfold inspect
  rw [hread]
  simp only [hne, he]
  exact ⟨_, rfl⟩

theorem inspect_of_unusable (h : Unusable store t) :
    ∃ error, inspect store t = failure [] error := by
  unfold inspect
  rcases hread : readDocument store t with error | document
  · exact ⟨_, rfl⟩
  obtain ⟨hne, hbad⟩ := h document hread
  have hempty : document.isEmpty = false := by simpa using hne
  rcases hdecode : Envelope.ofDocument document with error | e
  · simp only [hempty, hdecode]
    exact ⟨_, rfl⟩
  · exact absurd hdecode (hbad e)

/-! ### A migration is tried out -/

/-- The ports of a dry run with the markers beside the store. -/
abbrev dryPorts (store : Path) : Ports FileTree := migrationPorts store none true

/-- **A directory for the store, without markers:** it is the working directory or is there, and
there is nothing beside the store where its markers would be. -/
structure Unmarked (store : Path) (t : FileTree) : Prop where
  parent : ∀ dir, store.parent? = some dir → dir.isEmpty = true ∨ t.isDirectory dir = true
  free : ∀ d, FileMarkers.home (store.parent?.getD ⟨["."]⟩) t = .ok d →
    t.lookup (d ++ [".markers"]) = none

theorem Unmarked.isAvailable (h : Unmarked store t) : isAvailable store t = (true, t) := by
  have hmade : t.makeParent store = (.ok (), t) := by
    rcases hp : store.parent? with _ | dir
    · unfold FileTree.makeParent
      rw [hp]
    rcases h.parent dir hp with hempty | hdir
    · unfold FileTree.makeParent
      simp only [hp, hempty, if_true]
    · exact FileTree.makeParent_of_isDirectory hp hdir
  unfold FileStorage.isAvailable
  rw [hmade]

theorem Unmarked.home (h : Unmarked store t) :
    (∃ d, FileMarkers.home (store.parent?.getD ⟨["."]⟩) t = .ok d) ∧
      (store.parent?.getD ⟨["."]⟩).text.toList.any (· = '\x00') = false := by
  rcases hp : store.parent? with _ | dir
  · exact ⟨⟨_, rfl⟩, rfl⟩
  rcases h.parent dir hp with hempty | hdir
  · unfold Path.isEmpty at hempty
    obtain ⟨pieces⟩ := dir
    rcases pieces with _ | ⟨q, _ | ⟨r, rs⟩⟩ <;> simp at hempty
    · exact ⟨⟨_, rfl⟩, rfl⟩
    · subst hempty
      exact ⟨⟨_, rfl⟩, rfl⟩
  · refine ⟨FileTree.walk_of_isDirectory hdir, ?_⟩
    unfold FileTree.isDirectory at hdir
    rcases hl : t.locate dir with error | place <;> rw [hl] at hdir
    · cases hdir
    · exact (FileTree.locate_cases hl).1.1

theorem Unmarked.marker_eq_none_iff (h : Unmarked store t) {key : String}
    (hkey : FileMarkers.isKey key = true) : FileMarkers.get (markersBeside store) key t = .ok none ↔
      ((markersBeside store).child key).text.utf8ByteSize ≤ FileTree.maxPath := by
  obtain ⟨⟨d, hd⟩, hnul⟩ := h.home
  have hfree := h.free d hd
  unfold markersBeside
  generalize store.parent?.getD ⟨["."]⟩ = dir at hd hnul hfree ⊢
  have hmarkers : (dir.child ".markers").Ends dir.stem ".markers" := dir.ends_child rfl (by decide)
  have hends := FileMarkers.ends_of_isKey hkey (dir.child ".markers")
  have hwalk :
      t.walk (t.start (dir.child ".markers")) (dir.child ".markers").pieces = .error .notFound := by
    rw [hmarkers.pieces_eq, FileTree.walk_append, FileTree.walk_child hmarkers]
    rw [show t.walk (t.start dir) dir.pieces = .ok d from hd]
    show t.walk d [".markers"] = _
    unfold FileTree.walk
    rw [hfree]
    rfl
  have hnul' : ((dir.child ".markers").child key).text.toList.any (· = '\x00') = false :=
    Path.nul_child (Path.nul_child hnul rfl) (FileMarkers.nul_of_isKey hkey)
  have hread := FileTree.read_eq hends.names t
  rw [hnul', if_neg Bool.false_ne_true, FileTree.walk_child hends, hwalk] at hread
  unfold FileMarkers.get FileTree.readText
  simp only [FileMarkers.path_of_isKey hkey, hread]
  by_cases hfits : FileTree.maxPath < ((dir.child ".markers").child key).text.utf8ByteSize
  · rw [if_pos hfits]
    exact iff_of_false (by rintro ⟨⟩) (Nat.not_le.mpr hfits)
  · rw [if_neg hfits]
    exact iff_of_true rfl (Nat.not_lt.mp hfits)

theorem dry_run_loads (h : isAvailable store t = (true, t)) (now : Nat) :
    ∃ (g : Gateway FileTree) (found : Loaded) (g' : Gateway FileTree),
    g.ready = true ∧ g.world = t ∧ g.config.existenceKey = "state_existed" ∧
    g.Loads (dryPorts store) now found g' ∧
    let tried := (migrate store none none true now t).1
    (found = .freshInstall ∧ tried = describe store true (.fresh [] Chain.shipped.current) ∨
      found = .corrupted ∧ tried = describe store true .corrupted ∨
      ∃ e, found = .envelope e ∧
        tried = describe store true (.loaded (Chain.shipped.run .halt e).1 none)) := by
  obtain ⟨hconfig, hready, hworld, -⟩ := migrationStart_frame store none true {} t
  rw [h] at hready hworld
  rcases hb : (migrationStart store none true {} t).bootstrap (dryPorts store) now with ⟨r, s⟩
  have htried := (migrate_of_bootstrap (noConfig t) hb).2
  have hkey :
      (migrationStart store none true {} t).gateway.config.existenceKey = "state_existed" := by
    rw [hconfig]
  refine ⟨(migrationStart store none true {} t).gateway, ?_⟩
  have hboots := Session.boots_of_bootstrap (sound_migrationStart store none true {} t) hb
  cases hboots with
  | again done => cases done
  | fresh _ load => exact ⟨_, _, hready, hworld, hkey, load, .inl ⟨rfl, htried _ rfl⟩⟩
  | corrupted _ load => exact ⟨_, _, hready, hworld, hkey, load, .inr (.inl ⟨rfl, htried _ rfl⟩)⟩
  | kept _ load run =>
    subst run
    exact ⟨_, _, hready, hworld, hkey, load, .inr (.inr ⟨_, rfl, htried _ rfl⟩)⟩
  | writtenBack _ load _ changed =>
    rw [load.frame.1, hconfig, Bool.not_true, Bool.and_false] at changed
    cases changed

theorem get_dryPorts (store : Path) (t : FileTree) :
    (dryPorts store).storage.get none t = (readDocument store t, t) := by
  show ((readDocument store t).map id, t) = _
  cases readDocument store t <;> rfl

theorem getMarker_dryPorts (store : Path) (key : String) (t : FileTree) :
    ((dryPorts store).markers.get key t).1 = FileMarkers.get (markersBeside store) key t := rfl

/-- The path of the existence marker beside a store. -/
def existenceMarker (store : Path) : Path := (markersBeside store).child "state_existed"

theorem dry_run_of_nothing (h : Unmarked store t) (now : Nat)
    (hread : readDocument store t = .ok []) :
    (migrate store none none true now t).1 =
      describe store true (if (existenceMarker store).text.utf8ByteSize ≤ FileTree.maxPath then
        .fresh [] Chain.shipped.current else .corrupted) := by
  have hmarker : FileMarkers.get (markersBeside store) "state_existed" t = .ok none ↔
    (existenceMarker store).text.utf8ByteSize ≤ FileTree.maxPath := h.marker_eq_none_iff (by decide)
  obtain ⟨g, found, g', hready, rfl, hkey, load, hways⟩ := dry_run_loads h.isAvailable now
  have hget : (dryPorts store).storage.get none g.world = (.ok [], g.world) := by
    rw [get_dryPorts, hread]
  have hloaded := Session.loaded_of_empty load hready hget
  rw [hkey, getMarker_dryPorts, Ne, hmarker] at hloaded
  rcases hways with ⟨rfl, htried⟩ | ⟨rfl, htried⟩ | ⟨e, rfl, -⟩
  · rcases hloaded with ⟨-, hfits⟩ | ⟨⟨⟩, -⟩
    rw [if_pos hfits, htried]
  · rcases hloaded with ⟨⟨⟩, -⟩ | ⟨-, hlong⟩
    rw [if_neg hlong, htried]
  · rcases hloaded with ⟨⟨⟩, -⟩ | ⟨⟨⟩, -⟩

theorem dry_run_of_envelope (h : HoldsEnvelope store t e) (now : Nat) :
    (migrate store none none true now t).1 =
      describe store true (.loaded (Chain.shipped.run .halt e).1 none) := by
  obtain ⟨g, found, g', hready, rfl, -, load, hways⟩ := dry_run_loads h.isAvailable now
  obtain ⟨document, hread, he⟩ := h
  have hget : (dryPorts store).storage.get none g.world = (.ok document, g.world) := by
    rw [get_dryPorts, hread]
  obtain ⟨rfl, -⟩ := load.of_get hready hget he
  rcases hways with ⟨⟨⟩, -⟩ | ⟨⟨⟩, -⟩ | ⟨e', ⟨⟩, htried⟩
  exact htried

theorem dry_run_of_unusable (h : Unmarked store t) (now : Nat) (hbad : Unusable store t) :
    (migrate store none none true now t).1 = describe store true .corrupted := by
  obtain ⟨g, found, g', hready, rfl, -, load, hways⟩ := dry_run_loads h.isAvailable now
  obtain rfl := load.eq_corrupted hready (get_dryPorts store g.world) hbad
  rcases hways with ⟨⟨⟩, -⟩ | ⟨-, htried⟩ | ⟨e, ⟨⟩, -⟩
  exact htried

/-! ### The commands -/

/-- An argument that can be the value of an option. -/
def isValue (arg : String) : Bool := !looksLikeOption arg && !arg.isEmpty

theorem readOptions_store {v : Verb} (hv : v ≠ .versions) {o : Options} (ho : o.store = none)
    (store : String) (args : List String) : readOptions v o ("--store" :: store :: args) =
      if isValue store then readOptions v { o with store := some store } args else .mistake := by
  have hput : o.putNew .store store =
      if store.isEmpty then none else some { o with store := some store } := by
    unfold Options.putNew Options.get? Options.put
    rw [ho, Option.isSome_none, Bool.or_false]
  have hread : readOptions v o ("--store" :: store :: args) = if looksLikeOption store then .mistake
      else (o.putNew .store store).elim .mistake (readOptions v · args) := by
    rw [readOptions]
    cases v with
    | versions => exact absurd rfl hv
    | inspect | migrate =>
      show (if looksLikeOption store then Request.mistake else _) = _
      cases looksLikeOption store <;> cases o.putNew .store store <;> rfl
  rw [hread, hput]
  unfold isValue
  cases looksLikeOption store <;> cases store.isEmpty <;> rfl

theorem readArguments_inspect (store : String) : readArguments ["inspect", "--store", store] =
    if isValue store then .command (.inspect (.ofString store)) else .mistake :=
  readOptions_store (v := .inspect) nofun rfl store []

theorem readArguments_dry_run (store : String) :
    readArguments ["migrate", "--store", store, "--dry-run"] =
      if isValue store then .command (.migrate (.ofString store) none none true) else .mistake :=
  readOptions_store (v := .migrate) nofun rfl store ["--dry-run"]

def shown (store : String) (now : Nat) (t : FileTree) : Result :=
  (run ["inspect", "--store", store] now t).1

def tried (store : String) (now : Nat) (t : FileTree) : Result :=
  (run ["migrate", "--store", store, "--dry-run"] now t).1

theorem shown_eq (store : String) (now : Nat) (t : FileTree) : shown store now t =
    if isValue store then inspect (.ofString store) t else { code := 2, err := lines usage } := by
  unfold shown run
  rw [readArguments_inspect]
  cases isValue store <;> rfl

theorem tried_eq (store : String) (now : Nat) (t : FileTree) : tried store now t =
    if isValue store then (migrate (.ofString store) none none true now t).1
    else { code := 2, err := lines usage } := by
  unfold tried run
  rw [readArguments_dry_run]
  cases isValue store <;> rfl

/-- **The two commands see the same store.**  Whatever the argument and the tree are, where the
directory of the store is there and no markers are beside the store, showing the store and trying
out a migration end alike; the first shows that nothing is stored exactly where the second tells of
a fresh install, and shows a version exactly where the second starts from it.  For a store that
holds nothing, the path of the existence marker must be one that a file system takes. -/
theorem looks_agree (store : String) (now : Nat) (t : FileTree) (h : Unmarked (.ofString store) t)
    (hmarker : readDocument (.ofString store) t = .ok [] →
      (existenceMarker (.ofString store)).text.utf8ByteSize ≤ FileTree.maxPath) :
    Agree store (shown store now t) (tried store now t) := by
  rw [shown_eq, tried_eq]
  by_cases hvalue : isValue store = true
  swap
  · rw [if_neg hvalue, if_neg hvalue]
    exact agree_of_silent store rfl rfl rfl
  rw [if_pos hvalue, if_pos hvalue]
  rcases store_cases (.ofString store) t with hnothing | ⟨e, hheld⟩ | hbad
  · rw [inspect_of_nothing hnothing, dry_run_of_nothing h now hnothing, if_pos (hmarker hnothing),
      Path.text_ofString]
    exact agree_of_nothing rfl rfl rfl
  · obtain ⟨controllers, hshown⟩ := inspect_of_envelope hheld
    rw [hshown, dry_run_of_envelope hheld now, Path.text_ofString]
    obtain ⟨hcode, hstart⟩ := describe_dry_run (.ofString store) (Chain.shipped.run .halt e).1
    rw [Chain.fromVersion_run] at hstart
    exact agree_of_version hcode.symm (showsVersion_success store e.version controllers) hstart
  · obtain ⟨error, hshown⟩ := inspect_of_unusable hbad
    rw [hshown, dry_run_of_unusable h now hbad]
    exact agree_of_silent store rfl rfl rfl

/-- A store that is not there yet, in the working directory. -/
theorem looks_agree_fresh : Unmarked (.ofString "state.json") {} ∧
    Agree "state.json" (shown "state.json" 0 {}) (tried "state.json" 0 {}) ∧
    shown "state.json" 0 {} = success ["Store: state.json", "No state stored"] := by
  have hplace : Unmarked (.ofString "state.json") {} := by
    refine ⟨fun dir hdir => ?_, fun d hd => ?_⟩
    · obtain rfl : (⟨[""]⟩ : Path) = dir := Option.some.inj hdir
      exact .inl rfl
    · obtain rfl : ([] : Way) = d := Except.ok.inj hd
      rfl
  exact ⟨hplace, looks_agree "state.json" 0 {} hplace fun _ => by decide, by decide +kernel⟩

/-! ### A path without room for a marker -/

/-- A path that goes on for many slashes before it comes to its directory. -/
def slashes (n : Nat) : String :=
  String.ofList ('.' :: List.replicate (n + 1) '/' ++ ['a', '/', 's'])

/-- Its pieces before the last. -/
def slashesUp (n : Nat) : List String := "." :: List.replicate n "" ++ ["a"]

def slashesTree : FileTree := { entries := [(["a"], .directory)] }

theorem ends_slashes (n : Nat) : (Path.ofString (slashes n)).Ends (slashesUp n) "s" := by
  refine ⟨?_, rfl, by decide⟩
  have hsplit (n : Nat) (cs : List Char) :
      Path.split (List.replicate n '/' ++ cs) = List.replicate n [] ++ Path.split cs := by
    induction n with
    | zero => rfl
    | succ n ih => exact congrArg (List.cons []) ih
  have hpieces :
      Path.split (slashes n).toList = ['.'] :: List.replicate n [] ++ [['a'], ['s']] := by
    have htail := hsplit n ['a', '/', 's']
    unfold slashes
    rw [String.toList_ofList]
    show ['.'] :: Path.split (List.replicate n '/' ++ ['a', '/', 's']) = _
    rw [htail]
    rfl
  unfold Path.ofString slashesUp
  rw [hpieces]
  simp

theorem parent_slashes (n : Nat) : (Path.ofString (slashes n)).parent? = some ⟨slashesUp n⟩ := by
  have hreverse : (slashesUp n).reverse = "a" :: ("." :: List.replicate n "").reverse := by
    unfold slashesUp
    rw [List.reverse_append]
    rfl
  have htrim : Path.trim (slashesUp n).reverse = (slashesUp n).reverse := by
    rw [hreverse]
    exact Path.trim_cons (by decide) _
  rcases (ends_slashes n).parent_cases with ⟨hnone, -⟩ | ⟨hroot, -⟩ | ⟨-, -, hparent⟩
  · cases hnone
  · rw [htrim, hreverse] at hroot
    exact absurd (List.cons.inj hroot).1 (by decide)
  · rw [hparent, htrim, List.reverse_reverse]

theorem size_slashes (n : Nat) : (slashes n).utf8ByteSize = n + 5 := by
  have hsize (n : Nat) : (String.ofList (List.replicate n '/')).utf8ByteSize = n := by
    induction n with
    | zero => rfl
    | succ n ih =>
      rw [List.replicate_succ', String.ofList_append, String.utf8ByteSize_append, ih]
      rfl
  have hparts : slashes n =
      String.ofList ['.'] ++ String.ofList (List.replicate (n + 1) '/') ++
        String.ofList ['a', '/', 's'] := by
    rw [← String.ofList_append, ← String.ofList_append]
    rfl
  rw [hparts, String.utf8ByteSize_append, String.utf8ByteSize_append, hsize]
  show 1 + (n + 1) + 3 = n + 5
  omega

theorem slashesUp_ne (n : Nat) : slashesUp n ≠ [] := List.cons_ne_nil _ _

theorem getLast?_slashesUp (n : Nat) : (slashesUp n).getLast? = some "a" := List.getLast?_concat

theorem size_slashesUp (n : Nat) : (⟨slashesUp n⟩ : Path).text.utf8ByteSize = n + 3 := by
  have htext : slashes n = (⟨slashesUp n⟩ : Path).text ++ "/" ++ "s" := by
    rw [← Path.text_concat (slashesUp_ne n) "s", ← (ends_slashes n).pieces_eq]
    exact (Path.text_ofString (slashes n)).symm
  have hsize := congrArg String.utf8ByteSize htext
  rw [size_slashes, String.utf8ByteSize_append, String.utf8ByteSize_append] at hsize
  exact (Nat.add_right_cancel (m := 2) hsize).symm

theorem size_existenceMarker (n : Nat) :
    (existenceMarker (.ofString (slashes n))).text.utf8ByteSize = n + 26 := by
  unfold existenceMarker markersBeside
  rw [parent_slashes, Option.getD_some, Path.text_child,
    Path.text_child (p := ⟨slashesUp n⟩) (slashesUp_ne n)]
  · simp only [String.utf8ByteSize_append, size_slashesUp]
    rfl
  · rw [getLast?_slashesUp]
    decide
  · rw [Path.pieces_child]
    exact List.append_ne_nil_of_right_ne_nil _ (List.cons_ne_nil _ _)
  · rw [Path.pieces_child, List.getLast?_concat]
    decide

theorem nul_slashesUp (n : Nat) : (⟨slashesUp n⟩ : Path).text.toList.any (· = '\x00') = false := by
  rw [Path.any_nul_text]
  simp [slashesUp]

theorem walk_slashesUp (n : Nat) : slashesTree.walk [] (slashesUp n) = .ok ["a"] := by
  have hsilent : ∀ q ∈ "." :: List.replicate n "", Path.isSilent q = true := by
    intro q hq
    rcases List.mem_cons.mp hq with rfl | hq
    · rfl
    · rw [List.eq_of_mem_replicate hq]
      rfl
  show slashesTree.walk [] (("." :: List.replicate n "") ++ ["a"]) = _
  rw [FileTree.walk_append, FileTree.walk_silent hsilent]
  rfl

theorem unmarked_slashes {n : Nat} (h : n + 5 ≤ FileTree.maxPath) :
    Unmarked (.ofString (slashes n)) slashesTree := by
  have hwalk : FileMarkers.home ⟨slashesUp n⟩ slashesTree = .ok ["a"] := by
    unfold FileMarkers.home
    rw [FileTree.start_of_root rfl]
    exact walk_slashesUp n
  refine ⟨fun dir hdir => ?_, fun d hd => ?_⟩
  · obtain rfl := Option.some.inj ((parent_slashes n).symm.trans hdir)
    refine .inr (FileTree.isDirectory_of_walk (nul_slashesUp n) ?_ ?_ hwalk)
    · rw [size_slashesUp]
      exact (Nat.add_le_add_left (by decide) n).trans h
    · unfold Path.isEmpty slashesUp
      simp
  · rw [parent_slashes, Option.getD_some, hwalk] at hd
    obtain rfl := Except.ok.inj hd
    rfl

theorem readDocument_slashes {n : Nat} (h : n + 5 ≤ FileTree.maxPath) :
    readDocument (.ofString (slashes n)) slashesTree = .ok [] := by
  have hends := ends_slashes n
  have hnul : (Path.ofString (slashes n)).text.toList.any (· = '\x00') = false := by
    rw [Path.any_nul_text, hends.pieces_eq]
    simp [slashesUp]
  have hread : slashesTree.read (.ofString (slashes n)) = .error .notFound := by
    rw [FileTree.read_eq hends.names, hnul, if_neg nofun, Path.text_ofString, size_slashes,
      if_neg (Nat.not_lt.mpr h), FileTree.start_of_root rfl, walk_slashesUp]
    rfl
  unfold readDocument
  rw [hread]

theorem isValue_slashes (n : Nat) : isValue (slashes n) = true := by
  have hoption : looksLikeOption (slashes n) = false := by
    unfold looksLikeOption slashes
    rw [String.toList_ofList]
    rfl
  have hempty : (slashes n).isEmpty = false := by
    refine eq_false_of_ne_true fun h => ?_
    have hsize := size_slashes n
    rw [String.isEmpty_iff.mp h] at hsize
    cases hsize
  unfold isValue
  rw [hoption, hempty]
  rfl

/-- **A store without room for its marker:** nothing is stored, and that is what is shown; but the
path of the marker is too long for a file, so that a migration that is tried out meets
corruption. -/
theorem no_room_for_marker :
    Unmarked (.ofString (slashes 4080)) slashesTree ∧
      shown (slashes 4080) 0 slashesTree = success ["Store: " ++ slashes 4080, "No state stored"] ∧
      (tried (slashes 4080) 0 slashesTree).code = 1 ∧
      ¬ Agree (slashes 4080) (shown (slashes 4080) 0 slashesTree)
        (tried (slashes 4080) 0 slashesTree) := by
  have hplace : Unmarked (.ofString (slashes 4080)) slashesTree := unmarked_slashes (by decide)
  have hnothing : readDocument (.ofString (slashes 4080)) slashesTree = .ok [] :=
    readDocument_slashes (by decide)
  have hvalue : isValue (slashes 4080) = true := isValue_slashes 4080
  have hshown : shown (slashes 4080) 0 slashesTree =
      success ["Store: " ++ slashes 4080, "No state stored"] := by
    rw [shown_eq, if_pos hvalue, inspect_of_nothing hnothing, Path.text_ofString]
  have htried : (tried (slashes 4080) 0 slashesTree).code = 1 := by
    rw [tried_eq, if_pos hvalue, dry_run_of_nothing hplace 0 hnothing, size_existenceMarker,
      if_neg (by decide)]
    rfl
  refine ⟨hplace, hshown, htried, fun hagree => ?_⟩
  have hcode := hagree.code
  rw [hshown, htried] at hcode
  cases hcode

end Tool

end VersionedStore
