import VersionedStore.Tool.Run

/-!
# What a command tells of a store

Two commands look at a store: one shows what it holds, and the other migrates it, perhaps only to
try that out. What they tell can be read from what they print.

* `ShowsNothing`, `ShowsVersion`: what the first tells; `TellsFresh`, `TellsStart`: what the second
  tells;
* `Agree`: the two tell the same;
* `agree_of_silent`, `agree_of_nothing`, `agree_of_version`: from what is told to all that is not.
-/

namespace VersionedStore

/-! ### Numbers in texts -/

theorem StoreError.versionText_inj {v v' : Version} {c c' : Char} {cs cs' : List Char}
    (hc : c.isDigit = false) (hc' : c'.isDigit = false)
    (h : (versionText v).toList ++ c :: cs = (versionText v').toList ++ c' :: cs') : v = v' := by
  have hdigits (v : Version) {c : Char} (hc : c.isDigit = false) (cs : List Char) :
      ((versionText v).toList ++ c :: cs).takeWhile Char.isDigit = Nat.toDigits 10 v.toNat := by
    have hall : ∀ d ∈ Nat.toDigits 10 v.toNat, d.isDigit = true := fun d hd =>
      Nat.isDigit_of_mem_toDigits (by decide) (by decide) hd
    unfold versionText
    rw [Nat.toList_repr, List.takeWhile_append_of_pos hall,
      List.takeWhile_cons_of_neg (by rw [hc]; nofun), List.append_nil]
  have heq : Nat.toDigits 10 v.toNat = Nat.toDigits 10 v'.toNat := by
    rw [← hdigits v hc cs, ← hdigits v' hc' cs', h]
  have hvalue := congrArg (Nat.ofDigitChars 10 · 0) heq
  rw [Nat.ofDigitChars_ten_toDigits, Nat.ofDigitChars_ten_toDigits] at hvalue
  exact UInt32.toNat_inj.mp hvalue

namespace Tool

open StoreError

/-! ### What is told -/

@[simp] theorem lines_nil : lines [] = "" := rfl

@[simp] theorem lines_cons (l : String) (ls : List String) :
    lines (l :: ls) = l ++ "\n" ++ lines ls := by
  unfold lines
  rw [List.map_cons, String.join_cons]

/-- It is shown that nothing is stored. -/
def ShowsNothing (store : String) (r : Result) : Prop :=
  r.out = lines ["Store: " ++ store, "No state stored"]

/-- A state of the version is shown. -/
def ShowsVersion (store : String) (v : Version) (r : Result) : Prop :=
  ∃ rest, r.out = lines ["Store: " ++ store, "Schema version: " ++ versionText v] ++ rest

/-- A fresh install is told of. -/
def TellsFresh (r : Result) : Prop :=
  r.out = lines ["No state stored, a fresh install starts at version " ++
    versionText Chain.shipped.current]

/-- A migration from the version is told of. -/
def TellsStart (v : Version) (r : Result) : Prop :=
  ∃ rest, r.out = "Migrated " ++ versionText v ++ " -> " ++ rest

/-- **Two commands agree on a store:** they end alike, and the one shows that nothing is stored
where the other tells of a fresh install, and shows the version that the other starts from. -/
structure Agree (store : String) (shown tried : Result) : Prop where
  code : shown.code = tried.code
  nothing : ShowsNothing store shown ↔ TellsFresh tried
  version : ∀ v, ShowsVersion store v shown ↔ TellsStart v tried

theorem not_tellsStart_of_tellsFresh {r : Result} (h : TellsFresh r) (v : Version) :
    ¬ TellsStart v r := by
  rintro ⟨rest, hrest⟩
  have hhead := congrArg (·.toList.head?) (h.symm.trans hrest)
  simp only [lines_cons, String.toList_append, List.head?_append] at hhead
  exact absurd (show 'N' = 'M' from Option.some.inj hhead) (by decide)

theorem not_showsVersion_of_showsNothing {store : String} {r : Result} (h : ShowsNothing store r)
    (v : Version) : ¬ ShowsVersion store v r := by
  rintro ⟨rest, hrest⟩
  have htext := congrArg String.toList (h.symm.trans hrest)
  simp only [lines_cons, String.toList_append, List.append_assoc,
    List.append_cancel_left_eq] at htext
  have hhead := congrArg List.head? htext
  simp only [List.head?_append] at hhead
  exact absurd (show 'N' = 'S' from Option.some.inj hhead) (by decide)

/-- Commands that print nothing agree if they end alike. -/
theorem agree_of_silent (store : String) {shown tried : Result} (hcode : shown.code = tried.code)
    (hshown : shown.out = "") (htried : tried.out = "") : Agree store shown tried where
  code := hcode
  nothing := by
    unfold ShowsNothing TellsFresh
    rw [hshown, htried]
    simp [String.ext_iff]
  version v := by
    unfold ShowsVersion TellsStart
    rw [hshown, htried]
    simp [String.ext_iff]

theorem agree_of_nothing {store : String} {shown tried : Result} (hcode : shown.code = tried.code)
    (hshown : ShowsNothing store shown) (htried : TellsFresh tried) : Agree store shown tried where
  code := hcode
  nothing := iff_of_true hshown htried
  version v := iff_of_false (not_showsVersion_of_showsNothing hshown v)
    (not_tellsStart_of_tellsFresh htried v)

/-- The version that is shown, and the one that a migration starts from, can be told from the
output. -/
theorem agree_of_version {store : String} {v : Version} {shown tried : Result}
    (hcode : shown.code = tried.code) (hshown : ShowsVersion store v shown)
    (htried : TellsStart v tried) :
    Agree store shown tried where
  code := hcode
  nothing := iff_of_false (fun h => not_showsVersion_of_showsNothing h v hshown)
    fun h => not_tellsStart_of_tellsFresh h v htried
  version v' := by
    obtain ⟨rest, hrest⟩ := hshown
    obtain ⟨rest', hrest'⟩ := htried
    refine ⟨fun ⟨other, h⟩ => ?_, fun ⟨other, h⟩ => ?_⟩
    · have hv : v = v' := by
        have htext := congrArg String.toList (hrest.symm.trans h)
        simp only [lines_cons, lines_nil, String.toList_append, List.append_assoc,
          List.append_cancel_left_eq]
          at htext
        exact versionText_inj (by decide) (by decide) htext
      exact ⟨rest', hv ▸ hrest'⟩
    · have hv : v = v' := by
        have htext := congrArg String.toList (hrest'.symm.trans h)
        simp only [String.toList_append, List.append_assoc, List.append_cancel_left_eq] at htext
        exact versionText_inj (by decide) (by decide) htext
      exact ⟨rest, hv ▸ hrest⟩

/-! ### What the commands print -/

theorem showsVersion_success (store : String) (v : Version) (controllers : List String) :
    ShowsVersion store v (success
      (["Store: " ++ store, "Schema version: " ++ versionText v] ++ controllers)) := by
  refine ⟨lines controllers, ?_⟩
  show lines _ = _
  simp only [List.cons_append, List.nil_append, lines_cons, lines_nil, String.append_empty,
    String.append_assoc]

theorem describe_dry_run (store : Path) (r : Report) :
    (describe store true (.loaded r none)).code = 0 ∧
      TellsStart r.fromVersion (describe store true (.loaded r none)) := by
  have hsuccess : describe store true (.loaded r none) = success (migratedLine r ::
      (r.faults.map faultLine ++
        [if r.versionChanged then "Dry run, nothing written" else "Already up to date"])) := by
    unfold describe
    cases hchanged : r.versionChanged <;> simp only [hchanged] <;> rfl
  rw [hsuccess]
  refine ⟨rfl, ?_⟩
  show ∃ rest, lines (migratedLine r :: _) = _
  rw [lines_cons, migratedLine]
  simp only [String.append_assoc]
  exact ⟨_, rfl⟩

end Tool

end VersionedStore
