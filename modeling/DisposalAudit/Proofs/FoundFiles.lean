import DisposalAudit.Codebase.Load
import DisposalAudit.Proofs.DumpShape

/-!
# What becomes of the files that are found

Files are loaded one after the other, and the loading of one looks at the
modules that have been kept so far. What becomes of a file can be said
without them: the file itself and the files before it decide. A file that
holds no module has failed; a file that holds one is kept, unless a file
before it holds a module of the same name, and then it is a duplicate of the
first that does.

What searching finds and what reading a file comes to are taken as they come:
no two searches need agree, not even for one pattern, and a file that is found
need not be there.

## Main definitions

* `FileFate`, `fate` — what becomes of a file.
* `FileFate.line?` — the line that tells of it, if anything is wrong.

## Main results

* `loadFiles_eq_fates` — loading settles every file as its fate says.
* `loadModules_settles_each` — modules and lines of what is found.
-/

namespace DisposalAudit

/-! ## Files in order -/

namespace Text

theorem listLE_trans {a b c : List UInt16} (hab : listLE a b = true) (hbc : listLE b c = true) :
    listLE a c = true := by
  induction a generalizing b c with
  | nil => rfl
  | cons u us ih =>
      cases b with
      | nil => simp [listLE] at hab
      | cons v vs =>
          cases c with
          | nil => simp [listLE] at hbc
          | cons w ws =>
              simp only [listLE, Bool.or_eq_true, decide_eq_true_eq, Bool.and_eq_true,
                beq_iff_eq] at hab hbc ⊢
              rcases hab with huv | ⟨rfl, hab⟩
              · rcases hbc with hvw | ⟨rfl, -⟩
                · exact .inl (UInt16.lt_trans huv hvw)
                · exact .inl huv
              · rcases hbc with huw | ⟨rfl, hbc⟩
                · exact .inl huw
                · exact .inr ⟨rfl, ih hab hbc⟩

theorem listLE_total (a b : List UInt16) : (listLE a b || listLE b a) = true := by
  induction a generalizing b with
  | nil => rfl
  | cons u us ih =>
      cases b with
      | nil => rfl
      | cons v vs =>
          simp only [listLE, Bool.or_eq_true, decide_eq_true_eq, Bool.and_eq_true,
            beq_iff_eq] at ih ⊢
          rcases Nat.lt_trichotomy u.toNat v.toNat with hlt | heq | hgt
          · exact .inl (.inl hlt)
          · obtain rfl := UInt16.toNat_inj.1 heq
            rcases ih vs with hle | hge
            · exact .inl (.inr ⟨rfl, hle⟩)
            · exact .inr (.inr ⟨rfl, hge⟩)
          · exact .inr (.inl hgt)

theorem unitsLE_trans (s t u : String) (hst : unitsLE s t = true) (htu : unitsLE t u = true) :
    unitsLE s u = true :=
  listLE_trans hst htu

theorem unitsLE_total (s t : String) : (unitsLE s t || unitsLE t s) = true :=
  listLE_total (units s) (units t)

end Text

namespace FileSearch

theorem pairwise_sorted (search : FileSearch) :
    search.sorted.Pairwise fun a b => Text.unitsLE a b = true :=
  List.pairwise_mergeSort Text.unitsLE_trans Text.unitsLE_total search.found

end FileSearch

theorem mem_foundFiles {searches : List FileSearch} {path : String} :
    path ∈ foundFiles searches ↔ ∃ search ∈ searches, path ∈ search.found := by
  simp [foundFiles, FileSearch.sorted]

theorem nodup_eraseDups {α : Type} [BEq α] [LawfulBEq α] : ∀ l : List α, l.eraseDups.Nodup
  | [] => by simp
  | x :: rest => by
      rw [List.eraseDups_cons, List.nodup_cons]
      exact ⟨by simp, nodup_eraseDups _⟩
termination_by l => l.length
decreasing_by exact Nat.lt_succ_of_le (List.length_filter_le _ _)

/-! ## Fates -/

/-- What becomes of a file. -/
inductive FileFate where
  /-- Its module is kept. -/
  | kept (module : Module)
  /-- It holds no module. -/
  | failed (error : FileError)
  /-- Its module has the name of one in a file before. -/
  | duplicate (name first : String)

namespace FileFate

/-- The module that a file gives. -/
def module? : FileFate → Option Module
  | kept m => some m
  | failed _ | duplicate _ _ => none

/-- The error that a file gives. -/
def error? (path : String) : FileFate → Option LoadError
  | kept _ => none
  | failed error => some (.failed path error)
  | duplicate name first => some (.duplicate name path first)

/-- The line of the error that a file gives. -/
def line? (path : String) : FileFate → Option String
  | kept _ => none
  | failed error => some ("Failed to load module " ++ path ++ ": " ++ error.message)
  | duplicate name first =>
    some ("Duplicate module \"" ++ name ++ "\" found at " ++ path ++ " (first seen in " ++
      first ++ ")")

theorem message_error? (f : FileFate) (path : String) :
    (f.error? path).map LoadError.message = f.line? path := by
  cases f <;> rfl

theorem module?_eq_some_iff {f : FileFate} {m : Module} : f.module? = some m ↔ f = kept m := by
  cases f <;> simp [module?]

end FileFate

section

variable (readers : Readers) (content : String → Except String String)

/-- Whether a file holds a module of a name. -/
def holds (name path : String) : Bool :=
  match Module.ofFile readers path (content path) with
  | .ok m => m.name = name
  | .error _ => false

/-- What becomes of a file behind some others, given what reading files
comes to. -/
def fate (earlier : List String) (path : String) : FileFate :=
  match Module.ofFile readers path (content path) with
  | .error error => .failed error
  | .ok m =>
    match earlier.find? (holds readers content m.name) with
    | none => .kept m
    | some first => .duplicate m.name first

/-- What becomes of files behind some others. -/
def fates (earlier files : List String) : List (String × FileFate) :=
  files.mapIdx fun i path => (path, fate readers content (earlier ++ files.take i) path)

/-- What some fates come to. -/
def LoadResult.ofFates (settled : List (String × FileFate)) : LoadResult where
  modules := settled.filterMap fun file => file.2.module?
  errors := settled.filterMap fun file => file.2.error? file.1

variable {readers content}

theorem source_of_ofFile {path : String} {read : Except String String} {m : Module}
    (h : Module.ofFile readers path read = .ok m) : m.source = path := by
  unfold Module.ofFile at h
  cases read with
  | error message => simp at h
  | ok text =>
      cases hdocument : readers.document path text with
      | error message => simp [hdocument] at h
      | ok value =>
          cases hvalue : Module.ofValue path value with
          | error violations => simp [hdocument, hvalue, Except.mapError] at h
          | ok found =>
              obtain rfl : found = m := by simpa [hdocument, hvalue, Except.mapError] using h
              obtain ⟨-, rfl⟩ := Module.ofValue_eq_ok_iff.1 hvalue
              rfl

theorem holds_of_ok {path : String} {m : Module}
    (h : Module.ofFile readers path (content path) = .ok m) (name : String) :
    holds readers content name path = decide (m.name = name) := by
  rw [holds, h]

theorem holds_of_error {path : String} {error : FileError}
    (h : Module.ofFile readers path (content path) = .error error) (name : String) :
    holds readers content name path = false := by
  rw [holds, h]

theorem fates_cons (earlier : List String) (path : String) (rest : List String) :
    fates readers content earlier (path :: rest) =
      (path, fate readers content earlier path) :: fates readers content (earlier ++ [path]) rest := by
  simp [fates, List.mapIdx_cons]

/-! ## Loading -/

/-- The modules that have been kept of some files: under every name the one
of the first file that holds one. -/
def IsKeptOf (readers : Readers) (content : String → Except String String)
    (kept : List Module) (earlier : List String) : Prop :=
  ∀ name, (kept.find? fun m => m.name = name).map Module.source =
    earlier.find? (holds readers content name)

variable {kept : List Module} {earlier : List String} {path : String}

theorem IsKeptOf.nil (readers : Readers) (content : String → Except String String) :
    IsKeptOf readers content [] [] := fun _ => rfl

/-- A file without a module keeps nothing. -/
theorem IsKeptOf.of_failed {error : FileError} (h : IsKeptOf readers content kept earlier)
    (hfile : Module.ofFile readers path (content path) = .error error) :
    IsKeptOf readers content kept (earlier ++ [path]) := by
  intro name
  rw [List.find?_append, h name, List.find?_singleton, holds_of_error hfile]
  simp

/-- A duplicate is not kept. -/
theorem IsKeptOf.of_duplicate {m first : Module} (h : IsKeptOf readers content kept earlier)
    (hfile : Module.ofFile readers path (content path) = .ok m)
    (hfirst : (kept.find? fun other => other.name = m.name) = some first) :
    IsKeptOf readers content kept (earlier ++ [path]) := by
  intro name
  rw [List.find?_append, ← h name, List.find?_singleton, holds_of_ok hfile]
  by_cases hname : m.name = name
  · subst hname
    simp [hfirst]
  · simp [hname]

/-- A module of a new name is kept. -/
theorem IsKeptOf.of_kept {m : Module} (h : IsKeptOf readers content kept earlier)
    (hfile : Module.ofFile readers path (content path) = .ok m) :
    IsKeptOf readers content (kept ++ [m]) (earlier ++ [path]) := by
  intro name
  rw [List.find?_append, List.find?_append, ← h name, List.find?_singleton, List.find?_singleton,
    holds_of_ok hfile, ← source_of_ofFile hfile]
  cases kept.find? fun other => other.name = name with
  | some first => rfl
  | none => by_cases hname : m.name = name <;> simp [hname]

/-- **Loading settles every file by its fate.** -/
theorem loadFiles_eq_fates (files : List String) (h : IsKeptOf readers content kept earlier) :
    loadFiles readers content kept files = .ofFates (fates readers content earlier files) := by
  induction files generalizing kept earlier with
  | nil => rfl
  | cons path rest ih =>
      rw [loadFiles, fates_cons]
      cases hfile : Module.ofFile readers path (content path) with
      | error error =>
          have hfate : fate readers content earlier path = .failed error := by
            rw [fate, hfile]
          rw [hfate]
          dsimp only
          rw [ih (h.of_failed hfile)]
          rfl
      | ok m =>
          dsimp only
          cases hfirst : kept.find? fun other => decide (other.name = m.name) with
          | some first =>
              have hfate : fate readers content earlier path = .duplicate m.name first.source := by
                rw [fate, hfile]
                dsimp only
                rw [← h m.name, hfirst]
                rfl
              rw [hfate]
              dsimp only
              rw [ih (h.of_duplicate hfile hfirst)]
              rfl
          | none =>
              have hfate : fate readers content earlier path = .kept m := by
                rw [fate, hfile]
                dsimp only
                rw [← h m.name, hfirst]
                rfl
              rw [hfate]
              dsimp only
              rw [ih (h.of_kept hfile)]
              rfl

/-! ## What the fates come to -/

variable {files : List String}

theorem holds_eq_false_iff {name : String} :
    holds readers content name path = false ↔
      ∀ m, Module.ofFile readers path (content path) = .ok m → m.name ≠ name := by
  unfold holds
  cases Module.ofFile readers path (content path) <;> simp

theorem holds_eq_true_iff {name : String} :
    holds readers content name path = true ↔
      ∃ m, Module.ofFile readers path (content path) = .ok m ∧ m.name = name := by
  unfold holds
  cases Module.ofFile readers path (content path) <;> simp

theorem fate_eq_kept_iff {m : Module} :
    fate readers content earlier path = .kept m ↔
      Module.ofFile readers path (content path) = .ok m ∧
        ∀ other ∈ earlier, holds readers content m.name other = false := by
  unfold fate
  cases Module.ofFile readers path (content path) with
  | error error => simp
  | ok found =>
      dsimp only
      cases hfirst : earlier.find? (holds readers content found.name) with
      | none =>
          rw [List.find?_eq_none] at hfirst
          simp only [FileFate.kept.injEq, Except.ok.injEq, iff_self_and]
          rintro rfl other hother
          exact Bool.eq_false_iff.2 (hfirst other hother)
      | some first =>
          simp only [reduceCtorEq, Except.ok.injEq, false_iff]
          rintro ⟨rfl, hfresh⟩
          have hholds := List.find?_some hfirst
          rw [hfresh first (List.mem_of_find?_eq_some hfirst)] at hholds
          cases hholds

/-- A file that cannot be read fails with what reading it came to. -/
theorem fate_of_unreadable {message : String} (h : content path = .error message) :
    fate readers content earlier path = .failed (.unreadable message) := by
  simp only [fate, Module.ofFile, h]

theorem find?_of_fate_eq_duplicate {name first : String}
    (h : fate readers content earlier path = .duplicate name first) :
    earlier.find? (holds readers content name) = some first := by
  unfold fate at h
  cases hfile : Module.ofFile readers path (content path) with
  | error error => simp [hfile] at h
  | ok found =>
      rw [hfile] at h
      dsimp only at h
      cases hfirst : earlier.find? (holds readers content found.name) with
      | none => simp [hfirst] at h
      | some other =>
          obtain ⟨rfl, rfl⟩ : found.name = name ∧ other = first := by simpa [hfirst] using h
          exact hfirst

theorem mem_fates_iff {file : String × FileFate} :
    file ∈ fates readers content [] files ↔
      ∃ i path, files[i]? = some path ∧
        file = (path, fate readers content (files.take i) path) := by
  rw [List.mem_iff_getElem?]
  refine exists_congr fun i => ?_
  rw [fates, List.getElem?_mapIdx, Option.map_eq_some_iff]
  simp only [List.nil_append, eq_comm]

theorem mem_modules_iff {m : Module} :
    m ∈ (LoadResult.ofFates (fates readers content [] files)).modules ↔
      ∃ i path, files[i]? = some path ∧ fate readers content (files.take i) path = .kept m := by
  simp only [LoadResult.ofFates, List.mem_filterMap, mem_fates_iff]
  constructor
  · rintro ⟨_, ⟨i, path, hpath, rfl⟩, hmodule⟩
    exact ⟨i, path, hpath, FileFate.module?_eq_some_iff.1 hmodule⟩
  · rintro ⟨i, path, hpath, hkept⟩
    exact ⟨_, ⟨i, path, hpath, rfl⟩, FileFate.module?_eq_some_iff.2 hkept⟩

/-- Of files that are told apart, one is kept if and only if no file before it
holds a module of its name. -/
theorem mem_modules_iff_fresh {i : Nat} {m : Module} (hdistinct : files.Nodup)
    (hpath : files[i]? = some path) (hfile : Module.ofFile readers path (content path) = .ok m) :
    m ∈ (LoadResult.ofFates (fates readers content [] files)).modules ↔
      ∀ other ∈ files.take i, holds readers content m.name other = false := by
  rw [mem_modules_iff]
  constructor
  · rintro ⟨j, other, hother, hkept⟩
    obtain ⟨hsame, hfresh⟩ := fate_eq_kept_iff.1 hkept
    -- a module names the file that it was read from, so it stands in one place
    have hpaths : other = path := (source_of_ofFile hsame).symm.trans (source_of_ofFile hfile)
    rw [hpaths, ← hpath] at hother
    obtain ⟨hi, -⟩ := List.getElem?_eq_some_iff.1 hpath
    rwa [(List.getElem?_inj hi hdistinct).1 hother.symm]
  · intro hfresh
    exact ⟨i, path, hpath, fate_eq_kept_iff.2 ⟨hfile, hfresh⟩⟩

theorem nodup_names_modules :
    ((LoadResult.ofFates (fates readers content [] files)).modules.map Module.name).Nodup := by
  rw [List.Nodup, List.pairwise_map, LoadResult.ofFates, List.pairwise_filterMap,
    List.pairwise_iff_getElem]
  intro i j hi hj hij m hm m' hm' hname
  have hlt : j < files.length := by rwa [fates, List.length_mapIdx] at hj
  simp only [fates, List.getElem_mapIdx, List.nil_append, FileFate.module?_eq_some_iff,
    fate_eq_kept_iff] at hm hm'
  have hearlier : files[i] ∈ files.take j :=
    List.mem_take_iff_getElem.2 ⟨i, by omega, rfl⟩
  have hfresh := hm'.2 _ hearlier
  rw [holds_of_ok hm.1, decide_eq_false_iff_not] at hfresh
  exact hfresh hname

/-- The modules come from files in the order of these. -/
theorem sublist_sources_modules (earlier files : List String) :
    ((LoadResult.ofFates (fates readers content earlier files)).modules.map
      Module.source).Sublist files := by
  induction files generalizing earlier with
  | nil => exact List.nil_sublist []
  | cons path rest ih =>
      rw [fates_cons]
      cases hfate : fate readers content earlier path with
      | kept m =>
          have hsource := source_of_ofFile (fate_eq_kept_iff.1 hfate).1
          have hrest := (ih (earlier ++ [path])).cons_cons path
          rw [← hsource] at hrest ⊢
          exact hrest
      | failed error => exact (ih (earlier ++ [path])).cons path
      | duplicate name first => exact (ih (earlier ++ [path])).cons path

/-- A duplicate is told with the file of the module that has been kept. -/
theorem kept_of_duplicate {i : Nat} {name first : String}
    (hfate : fate readers content (files.take i) path = .duplicate name first) :
    ∃ m ∈ (LoadResult.ofFates (fates readers content [] files)).modules,
      m.name = name ∧ m.source = first := by
  obtain ⟨hholds, before, after, hsplit, hbefore⟩ :=
    List.find?_eq_some_iff_append.1 (find?_of_fate_eq_duplicate hfate)
  obtain ⟨m, hfile, hname⟩ := holds_eq_true_iff.1 hholds
  have hfiles : files = before ++ first :: (after ++ files.drop i) := by
    rw [← List.cons_append, ← List.append_assoc, ← hsplit, List.take_append_drop]
  refine ⟨m, mem_modules_iff.2 ⟨before.length, first, ?_, fate_eq_kept_iff.2 ⟨hfile, ?_⟩⟩,
    hname, source_of_ofFile hfile⟩
  · rw [hfiles, List.getElem?_append_right (Nat.le_refl _), Nat.sub_self,
      List.getElem?_cons_zero]
  · rw [hfiles, List.take_left, hname]
    simpa using hbefore

end

/-! ## Searches -/

section

variable (readers : Readers) (content : String → Except String String)
variable (searches : List FileSearch)

theorem modules_loadModules :
    (loadModules readers content searches).modules =
      (LoadResult.ofFates (fates readers content [] (foundFiles searches))).modules := by
  rw [loadModules, loadFiles_eq_fates _ (IsKeptOf.nil readers content)]

theorem errors_loadModules :
    (loadModules readers content searches).errors =
      (searches.filter fun search => search.found.isEmpty).map
          (fun search => .unmatched search.pattern) ++
        (LoadResult.ofFates (fates readers content [] (foundFiles searches))).errors := by
  rw [loadModules, loadFiles_eq_fates _ (IsKeptOf.nil readers content)]

/-- The lines of the errors: one for each search that finds nothing, then
those of the files. -/
theorem lines_loadModules :
    (loadModules readers content searches).errors.map LoadError.message =
      (searches.filter fun search => search.found.isEmpty).map
          (fun search => "No module dumps matched " ++ search.pattern) ++
        (fates readers content [] (foundFiles searches)).filterMap
          fun file => file.2.line? file.1 := by
  rw [errors_loadModules, List.map_append, List.map_map, LoadResult.ofFates, List.map_filterMap]
  simp only [FileFate.message_error?]
  rfl

/-- Every file has a module or an error, and every search that finds nothing
has one more. -/
theorem length_loadModules :
    (loadModules readers content searches).errors.length +
        (loadModules readers content searches).modules.length =
      (searches.filter fun search => search.found.isEmpty).length +
        (foundFiles searches).length := by
  have hlength := loadFiles_length readers content [] (foundFiles searches)
  rw [loadFiles_eq_fates _ (IsKeptOf.nil readers content)] at hlength
  rw [modules_loadModules, errors_loadModules, List.length_append, List.length_map]
  omega

end

/--
**Every file is settled once.** Whatever searches find, and whatever reading
a file comes to, the files, search by search and each where it is found first,
are told apart, and each of them has one fate, by what it holds and what the
files before it hold: it gives a module, or the line that it could not be
loaded, or the line that its module is a duplicate. Modules and lines are
those of the fates, in the order of the files, behind one line for each search
that found nothing. So the names of modules are told apart, a module is kept
exactly if no file before it holds one of its name, a file that cannot be read
gives what reading it came to, and a duplicate is told with the file of the
module that was kept.
-/
theorem loadModules_settles_each (readers : Readers) (content : String → Except String String)
    (searches : List FileSearch) :
    let files := (searches.flatMap FileSearch.sorted).eraseDups
    let settled := files.mapIdx fun i path =>
      (path, fate readers content (files.take i) path)
    let unmatched := searches.filter fun search => search.found.isEmpty
    let result := loadModules readers content searches
    let lines := result.errors.map LoadError.message
    (files.Nodup ∧ (∀ path, path ∈ files ↔ ∃ search ∈ searches, path ∈ search.found) ∧
      ∀ search ∈ searches, search.sorted.Perm search.found ∧
        search.sorted.Pairwise fun a b => Text.unitsLE a b = true) ∧
    result.modules = settled.filterMap (fun file => file.2.module?) ∧
    lines = unmatched.map (fun search => "No module dumps matched " ++ search.pattern) ++
      settled.filterMap (fun file => file.2.line? file.1) ∧
    (∀ i path m, files[i]? = some path → Module.ofFile readers path (content path) = .ok m →
      (m ∈ result.modules ↔ ∀ other ∈ files.take i, ∀ m',
        Module.ofFile readers other (content other) = .ok m' → m'.name ≠ m.name)) ∧
    (result.modules.map Module.name).Nodup ∧
    (result.modules.map Module.source).Sublist files ∧
    (∀ path ∈ files, ∀ message, content path = .error message →
      "Failed to load module " ++ path ++ ": " ++ message ∈ lines) ∧
    (∀ i path name first, files[i]? = some path →
      fate readers content (files.take i) path = .duplicate name first →
      ∃ m ∈ result.modules, m.name = name ∧ m.source = first) ∧
    lines.length + result.modules.length = unmatched.length + files.length := by
  have hdistinct : (foundFiles searches).Nodup := nodup_eraseDups _
  have hfiles : (searches.flatMap FileSearch.sorted).eraseDups = foundFiles searches := rfl
  rw [hfiles]
  dsimp only
  refine ⟨⟨hdistinct, fun path => mem_foundFiles, fun search _ =>
    ⟨List.mergeSort_perm _ _, search.pairwise_sorted⟩⟩,
    modules_loadModules readers content searches, lines_loadModules readers content searches,
    ?_, ?_, ?_, ?_, ?_, ?_⟩
  · intro i path m hpath hfile
    rw [modules_loadModules, mem_modules_iff_fresh hdistinct hpath hfile]
    simp only [holds_eq_false_iff]
  · rw [modules_loadModules]
    exact nodup_names_modules
  · rw [modules_loadModules]
    exact sublist_sources_modules [] _
  · intro path hpath message hread
    obtain ⟨i, hi⟩ := List.mem_iff_getElem?.1 hpath
    rw [lines_loadModules]
    refine List.mem_append_right _
      (List.mem_filterMap.2 ⟨_, mem_fates_iff.2 ⟨i, path, hi, rfl⟩, ?_⟩)
    rw [fate_of_unreadable hread]
    rfl
  · intro i path name first _ hfate
    rw [modules_loadModules]
    exact kept_of_duplicate hfate
  · rw [List.length_map]
    exact length_loadModules readers content searches

end DisposalAudit
