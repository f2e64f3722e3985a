import ChartStream.Config.Load
import ChartStream.FileTree
import ChartStream.Proofs.SettingsCheck
import Mathlib.Data.List.Forall2
import Mathlib.Data.List.Sort
import Mathlib.Data.List.TakeDrop
import Mathlib.Data.String.Basic

/-!
# What is loaded from files

The configuration that is loaded from a main file and a directory of files of jobs, as a relation, and the reasons why
nothing is loaded. Reading a file and reading a text as settings are functions here: only what they give is used. Main
definitions: `Files.Ascending`, `PluginConfig.Loaded`, `PluginConfig.Unloadable`, `Files.SameJobs`. Main statement:
`PluginConfig.loaded_settings`.
-/

namespace ChartStream

set_option autoImplicit false

/-! ## Files of jobs -/

namespace Files

/-- A name is that of a file of jobs: something and then one of the two endings. -/
def IsJobFile (name : String) : Prop :=
  ∃ stem, stem ≠ "" ∧ (name = stem ++ ".yaml" ∨ name = stem ++ ".yml")

/-- The extension of a name, from what stands after its last dot and what stands before, both backwards. -/
def extensionOf (after before : List Char) : Option String :=
  match before with
  | '.' :: _ :: _ => some (String.ofList after.reverse)
  | _ => none

theorem extension?_eq (name : String) :
    extension? name =
      extensionOf (name.toList.reverse.takeWhile (· != '.')) (name.toList.reverse.dropWhile (· != '.')) := by
  rw [extension?, List.span_eq_takeWhile_dropWhile]
  rfl

/-- The extension of a name is what follows its last dot, if something comes before that. -/
theorem extension?_eq_some_iff {name ext : String} (hdot : '.' ∉ ext.toList) :
    extension? name = some ext ↔ ∃ stem, stem ≠ "" ∧ name = stem ++ "." ++ ext := by
  rw [extension?_eq]
  constructor
  · intro h
    have hname : name.toList = (name.toList.reverse.dropWhile (· != '.')).reverse ++
        (name.toList.reverse.takeWhile (· != '.')).reverse := by
      rw [← List.reverse_append, List.takeWhile_append_dropWhile, List.reverse_reverse]
    unfold extensionOf at h
    split at h
    · next c more hbefore =>
      rw [hbefore] at hname
      refine ⟨String.ofList (c :: more).reverse, by simp, ?_⟩
      rw [← Option.some.inj h]
      exact String.toList_inj.mp (hname.trans (by simp))
    · cases h
  · rintro ⟨stem, hstem, rfl⟩
    have hname : (stem ++ "." ++ ext).toList.reverse = ext.toList.reverse ++ '.' :: stem.toList.reverse := by
      simp
    have hext : ∀ c ∈ ext.toList.reverse, (c != '.') = true := by
      intro c hc
      simp only [bne_iff_ne, ne_eq]
      rintro rfl
      exact hdot (List.mem_reverse.mp hc)
    obtain ⟨c, more, hrev⟩ := List.exists_cons_of_ne_nil (l := stem.toList.reverse) (by simpa using hstem)
    rw [hname, List.takeWhile_append_of_pos hext, List.dropWhile_append_of_pos hext, hrev]
    simp [extensionOf]

theorem isJobFile_iff {name : String} : isJobFile name = true ↔ IsJobFile name := by
  have hyaml : '.' ∉ "yaml".toList := by decide
  have hyml : '.' ∉ "yml".toList := by decide
  have hjoined (stem : String) :
      stem ++ "." ++ "yaml" = stem ++ ".yaml" ∧ stem ++ "." ++ "yml" = stem ++ ".yml" := by
    rw [String.append_assoc, String.append_assoc]
    exact ⟨rfl, rfl⟩
  simp only [isJobFile, Bool.or_eq_true, decide_eq_true_eq, extension?_eq_some_iff hyaml,
    extension?_eq_some_iff hyml, IsJobFile, and_or_left, exists_or, hjoined]

instance : DecidablePred IsJobFile :=
  fun _ => decidable_of_iff _ isJobFile_iff

/-- The names of the files of jobs among the names in a directory. -/
def jobNames (entries : List (String × Bool)) : List String :=
  (entries.filter fun e => e.2 ∧ IsJobFile e.1).map (·.1)

/-- Paths are those of all files of jobs in a directory, each as often as its name is there, in ascending order. -/
structure Ascending (directory : String) (entries : List (String × Bool)) (paths : List String) : Prop where
  sorted : paths.Pairwise (· ≤ ·)
  perm : paths.Perm ((jobNames entries).map (join directory))

theorem jobFiles_eq (directory : String) (entries : List (String × Bool)) :
    jobFiles directory entries = ((jobNames entries).map (join directory)).mergeSort fun a b => decide (a ≤ b) := by
  have hentry (e : String × Bool) : (e.2 && isJobFile e.1) = decide (e.2 = true ∧ IsJobFile e.1) := by
    rw [Bool.eq_iff_iff, Bool.and_eq_true, isJobFile_iff, decide_eq_true_eq]
  rw [jobFiles, jobNames, List.map_map]
  simp only [hentry]
  rfl

theorem ascending_jobFiles (directory : String) (entries : List (String × Bool)) :
    Ascending directory entries (jobFiles directory entries) where
  sorted := by
    rw [jobFiles_eq]
    exact List.pairwise_mergeSort' (· ≤ ·) _
  perm := jobFiles_eq directory entries ▸ List.mergeSort_perm _ _

/-- The order of the paths is the only one that ascends. -/
theorem ascending_iff {directory : String} {entries : List (String × Bool)} {paths : List String} :
    Ascending directory entries paths ↔ paths = jobFiles directory entries := by
  constructor
  · intro h
    have hsorted := ascending_jobFiles directory entries
    exact List.Perm.eq_of_pairwise (fun _ _ _ _ hab hba => String.le_antisymm hab hba) h.sorted hsorted.sorted
      (h.perm.trans hsorted.perm.symm)
  · rintro rfl
    exact ascending_jobFiles directory entries

theorem join_injective (directory : String) : Function.Injective (join directory) := by
  intro a b h
  rw [← String.toList_inj] at h ⊢
  unfold join at h
  split at h
  · simpa using h
  · simpa using h

/-- With every name there once, as in a directory, no path is there twice. -/
theorem Ascending.strict {directory : String} {entries : List (String × Bool)} {paths : List String}
    (h : Ascending directory entries paths) (hnames : (entries.map (·.1)).Nodup) : paths.Pairwise (· < ·) := by
  have hdistinct : (jobNames entries).Nodup := (List.filter_sublist.map _).nodup hnames
  have hpaths : paths.Nodup := h.perm.nodup_iff.mpr (hdistinct.map (join_injective directory))
  refine hpaths.imp₂ (fun a b hne hle => ?_) h.sorted
  exact lt_of_le_of_ne hle hne

theorem nodup_eraseDups : ∀ names : List String, names.eraseDups.Nodup
  | [] => List.nodup_nil
  | name :: rest => by
    rw [List.eraseDups_cons]
    refine List.nodup_cons.mpr ⟨fun hmem => ?_, nodup_eraseDups _⟩
    simp [List.mem_eraseDups] at hmem
termination_by names => names.length
decreasing_by exact Nat.lt_succ_of_le (List.length_filter_le _ _)

theorem nodup_of_list? {t : FileTree} {directory : String} {entries : List (String × Bool)}
    (h : t.list? directory = some entries) : (entries.map (·.1)).Nodup := by
  unfold FileTree.list? at h
  split at h
  · cases h
  · split at h
    · cases h
      simpa [Function.comp_def, FileTree.children] using nodup_eraseDups _
    · cases h

/-- In a tree every directory can be listed, and has every name once. -/
theorem listing_of_tree {t : FileTree} {directory : String} {listing : Listing}
    (h : t.files.list? directory = some listing) : ∃ entries, listing = .ok entries ∧ (entries.map (·.1)).Nodup := by
  obtain ⟨entries, hentries, rfl⟩ := Option.map_eq_some_iff.mp h
  exact ⟨entries, rfl, nodup_of_list? hentries⟩

/-- What two file systems tell of a directory is the same for files of jobs: neither has the directory, both cannot list
it for one reason, or the names of files of jobs are the same up to their order. -/
inductive SameListing : Option Listing → Option Listing → Prop where
  | missing : SameListing none none
  | unlisted (reason : String) : SameListing (some (.error reason)) (some (.error reason))
  | listed {entries others : List (String × Bool)} (hnames : (jobNames entries).Perm (jobNames others)) :
      SameListing (some (.ok entries)) (some (.ok others))

/-- Two file systems have the same files of jobs in a directory: their names are told alike, and they are read alike. -/
structure SameJobs (files other : Files) (directory : String) : Prop where
  names : SameListing (files.list? directory) (other.list? directory)
  read : ∀ entries, files.list? directory = some (.ok entries) → ∀ name ∈ jobNames entries,
    files.read (join directory name) = other.read (join directory name)

theorem jobFiles_congr {directory : String} {entries others : List (String × Bool)}
    (h : (jobNames entries).Perm (jobNames others)) : jobFiles directory entries = jobFiles directory others := by
  have hsorted := ascending_jobFiles directory entries
  exact ascending_iff.mp ⟨hsorted.sorted, hsorted.perm.trans (h.map _)⟩

end Files

/-! ## One file -/

namespace Config

variable {α : Type}

/-- A file is readable, and its text is read as some settings after expansion. -/
def Holds (files : Files) (env : Environment) (read : Yaml.Place → Reading α) (path : String) (value : α) : Prop :=
  ∃ text, files.read path = .ok text ∧ (Yaml.Tree.read (EnvReference.expand env text)).decode read = .ok value

/-- Why a file holds no settings: it cannot be read, its text is not of the expected form, which is the error `unfit`,
or the reading of its text breaks down. -/
inductive Unreadable (files : Files) (env : Environment) (unfit : Error) (read : Yaml.Place → Reading α)
    (path : String) : Error → Prop where
  | io {reason : String} (hread : files.read path = .error reason) : Unreadable files env unfit read path (.io reason)
  | unfit {text : String} (hread : files.read path = .ok text)
      (hdecode : (Yaml.Tree.read (EnvReference.expand env text)).decode read = .error .unfit) :
      Unreadable files env unfit read path unfit
  | overflow {text : String} (hread : files.read path = .ok text)
      (hdecode : (Yaml.Tree.read (EnvReference.expand env text)).decode read = .error .overflow) :
      Unreadable files env unfit read path .overflow

/-- The settings that a file holds, or why it holds none. -/
def fromFile (files : Files) (env : Environment) (unfit : Error) (read : Yaml.Place → Reading α) (path : String) :
    Except Error α :=
  readFile files path >>= ofText env unfit read

variable {files : Files} {env : Environment} {unfit : Error} {read : Yaml.Place → Reading α} {path : String}

theorem fromFile_of_error {reason : String} (hread : files.read path = .error reason) :
    fromFile files env unfit read path = .error (.io reason) := by
  rw [fromFile, readFile, hread]
  rfl

theorem fromFile_of_text {text : String} (hread : files.read path = .ok text) :
    fromFile files env unfit read path = ofText env unfit read text := by
  rw [fromFile, readFile, hread]
  rfl

theorem fromFile_eq_ok_iff {value : α} :
    fromFile files env unfit read path = .ok value ↔ Holds files env read path value := by
  constructor
  · intro h
    cases hread : files.read path with
    | error reason =>
      rw [fromFile_of_error hread] at h
      cases h
    | ok text =>
      rw [fromFile_of_text hread, ofText] at h
      split at h
      · next hdecode => exact ⟨text, hread, hdecode.trans (congrArg _ (Except.ok.inj h))⟩
      · cases h
      · cases h
  · rintro ⟨text, hread, hdecode⟩
    rw [fromFile_of_text hread, ofText, hdecode]

theorem fromFile_eq_error_iff {e : Error} :
    fromFile files env unfit read path = .error e ↔ Unreadable files env unfit read path e := by
  constructor
  · intro h
    cases hread : files.read path with
    | error reason =>
      rw [fromFile_of_error hread] at h
      cases h
      exact .io hread
    | ok text =>
      rw [fromFile_of_text hread, ofText] at h
      split at h
      · cases h
      · next hdecode =>
        cases h
        exact .unfit hread hdecode
      · next hdecode =>
        cases h
        exact .overflow hread hdecode
  · rintro (hread | ⟨hread, hdecode⟩ | ⟨hread, hdecode⟩)
    · exact fromFile_of_error hread
    · rw [fromFile_of_text hread, ofText, hdecode]
    · rw [fromFile_of_text hread, ofText, hdecode]

theorem checked_eq_ok_iff {value result : α} {check : Except Fault Unit} :
    checked value check = .ok result ↔ check = .ok () ∧ result = value := by
  cases check with
  | ok => simp [checked, eq_comm]
  | error fault => simp [checked]

theorem checked_eq_error_iff {value : α} {check : Except Fault Unit} {e : Error} :
    checked value check = .error e ↔ ∃ fault, check = .error fault ∧ e = .invalid fault := by
  cases check with
  | ok => simp [checked]
  | error fault => simp [checked, eq_comm]

theorem bind_eq_ok_iff {β : Type} {x : Except Error α} {f : α → Except Error β} {b : β} :
    x >>= f = .ok b ↔ ∃ a, x = .ok a ∧ f a = .ok b := by
  cases x with
  | ok a => exact ⟨fun h => ⟨a, rfl, h⟩, fun ⟨_, ha, h⟩ => Except.ok.inj ha ▸ h⟩
  | error e => exact ⟨nofun, fun ⟨_, ha, _⟩ => nomatch ha⟩

theorem bind_eq_error_iff {β : Type} {x : Except Error α} {f : α → Except Error β} {e : Error} :
    x >>= f = .error e ↔ x = .error e ∨ ∃ a, x = .ok a ∧ f a = .error e := by
  cases x with
  | ok a => exact ⟨fun h => .inr ⟨a, rfl, h⟩, fun h => h.elim nofun fun ⟨_, ha, h⟩ => Except.ok.inj ha ▸ h⟩
  | error own =>
    exact ⟨fun h => .inl (congrArg _ (Except.error.inj h)), fun h => h.elim (fun h => congrArg _ (Except.error.inj h))
      fun ⟨_, ha, _⟩ => nomatch ha⟩

end Config

/-! ## The files of a directory -/

namespace CollectorsConfig

open Config

variable {files : Files} {env : Environment}

/-- The jobs of a file. -/
abbrev HeldBy (files : Files) (env : Environment) (path : String) (jobs : CollectorsConfig) : Prop :=
  Holds files env ofDocument path jobs

theorem loadFiles_cons (path : String) (rest : List String) :
    loadFiles files env (path :: rest) =
      fromFile files env (.invalid (.unreadableJobs path)) ofDocument path >>= fun jobs =>
        loadFiles files env rest >>= fun others => .ok (jobs.merge others) :=
  rfl

/-- Files are loaded if each of them holds jobs, and these stand one after the other. -/
theorem loadFiles_eq_ok_iff {paths : List String} {jobs : CollectorsConfig} :
    loadFiles files env paths = .ok jobs ↔
      ∃ parts, List.Forall₂ (HeldBy files env) paths parts ∧ jobs = ⟨parts.flatMap (·.portcheck)⟩ := by
  induction paths generalizing jobs with
  | nil => simp [loadFiles, eq_comm]
  | cons path rest ih =>
    simp only [loadFiles_cons, bind_eq_ok_iff, fromFile_eq_ok_iff, ih]
    constructor
    · rintro ⟨own, hown, others, ⟨parts, hparts, rfl⟩, hjobs⟩
      exact ⟨own :: parts, .cons hown hparts, (Except.ok.inj hjobs).symm⟩
    · rintro ⟨parts, hparts, rfl⟩
      cases hparts with
      | @cons _ own _ parts hown hparts => exact ⟨own, hown, _, ⟨parts, hparts, rfl⟩, rfl⟩

/-- Files are not loaded because of the first one that holds no jobs. -/
theorem loadFiles_eq_error_iff {paths : List String} {e : Error} :
    loadFiles files env paths = .error e ↔
      ∃ before path after, paths = before ++ path :: after ∧ (∀ p ∈ before, ∃ jobs, HeldBy files env p jobs) ∧
        Unreadable files env (.invalid (.unreadableJobs path)) ofDocument path e := by
  induction paths with
  | nil => exact ⟨nofun, fun ⟨before, path, after, h, _⟩ => by simp at h⟩
  | cons path rest ih =>
    simp only [loadFiles_cons, bind_eq_error_iff, fromFile_eq_error_iff, fromFile_eq_ok_iff, ih, reduceCtorEq,
      and_false, exists_false, or_false]
    constructor
    · rintro (hfirst | ⟨jobs, hjobs, before, p, after, rfl, hbefore, hp⟩)
      · exact ⟨[], path, rest, rfl, by simp, hfirst⟩
      · exact ⟨path :: before, p, after, rfl, List.forall_mem_cons.mpr ⟨⟨jobs, hjobs⟩, hbefore⟩, hp⟩
    · rintro ⟨before, p, after, hsplit, hbefore, hp⟩
      cases before with
      | nil =>
        obtain ⟨rfl, rfl⟩ := List.cons.inj hsplit
        exact .inl hp
      | cons first before =>
        obtain ⟨rfl, rfl⟩ := List.cons.inj hsplit
        obtain ⟨⟨jobs, hjobs⟩, hbefore⟩ := List.forall_mem_cons.mp hbefore
        exact .inr ⟨jobs, hjobs, before, p, after, rfl, hbefore, hp⟩

/-- Files that two file systems read alike are loaded alike. -/
theorem loadFiles_congr {other : Files} {paths : List String} (h : ∀ p ∈ paths, files.read p = other.read p) :
    loadFiles files env paths = loadFiles other env paths := by
  induction paths with
  | nil => rfl
  | cons path rest ih =>
    obtain ⟨hpath, hrest⟩ := List.forall_mem_cons.mp h
    rw [loadFiles_cons, loadFiles_cons, fromFile, fromFile, readFile, readFile, hpath, ih hrest]

theorem loadDirectory_congr {other : Files} {directory : String} (h : files.SameJobs other directory) :
    loadDirectory files env directory = loadDirectory other env directory := by
  obtain ⟨hnames, hread⟩ := h
  unfold loadDirectory
  generalize files.list? directory = listed at hnames hread ⊢
  generalize other.list? directory = otherListed at hnames ⊢
  cases hnames with
  | missing => rfl
  | unlisted reason => rfl
  | @listed entries others hnames =>
    show loadFiles files env (Files.jobFiles directory entries) =
      loadFiles other env (Files.jobFiles directory others)
    rw [← Files.jobFiles_congr hnames]
    refine loadFiles_congr fun p hp => ?_
    have hnamed := (Files.ascending_jobFiles directory entries).perm.mem_iff.mp hp
    obtain ⟨name, hname, rfl⟩ := List.mem_map.mp hnamed
    exact hread entries rfl name hname

end CollectorsConfig

/-! ## The configuration -/

namespace PluginConfig

open Config

variable {files : Files} {env : Environment} {path : String}

/-- The settings of a main file. -/
abbrev HeldBy (files : Files) (env : Environment) (path : String) (main : PluginConfig) : Prop :=
  Holds files env ofDocument path main

/-- The settings with the jobs of some files after their own. -/
def withJobs (main : PluginConfig) (parts : List CollectorsConfig) : PluginConfig :=
  { main with collectors := ⟨main.collectors.portcheck ++ parts.flatMap (·.portcheck)⟩ }

/-- The configuration that is loaded: the main file holds settings that are accepted, and if these name a directory,
that directory is there and can be listed, each of its files of jobs holds jobs, and all jobs are accepted together. The
jobs of the files come after those of the main file, file by file in ascending order of the paths. -/
inductive Loaded (files : Files) (env : Environment) (path : String) : PluginConfig → Prop where
  | alone {main : PluginConfig} (hmain : HeldBy files env path main) (haccepted : main.validate = .ok ())
      (hnone : main.collectorPath = none) : Loaded files env path main
  | merged {main : PluginConfig} {directory : String} {entries : List (String × Bool)} {paths : List String}
      {parts : List CollectorsConfig} (hmain : HeldBy files env path main) (haccepted : main.validate = .ok ())
      (hdirectory : main.collectorPath = some directory) (hentries : files.list? directory = some (.ok entries))
      (hpaths : Files.Ascending directory entries paths)
      (hparts : List.Forall₂ (CollectorsConfig.HeldBy files env) paths parts)
      (hmerged : (main.withJobs parts).validate = .ok ()) : Loaded files env path (main.withJobs parts)

/-- Why no configuration is loaded. Files that cannot be read and a directory that cannot be listed, and only these, are
reported as such; that a text is not of the expected form is reported as such of the main file only. Everything else is
a fault of the settings, but for a reading that breaks down. -/
inductive Unloadable (files : Files) (env : Environment) (path : String) : Error → Prop where
  | main {e : Error} (hmain : Unreadable files env .parse ofDocument path e) : Unloadable files env path e
  | refused {main : PluginConfig} {fault : Fault} (hmain : HeldBy files env path main)
      (hrefused : main.validate = .error fault) : Unloadable files env path (.invalid fault)
  | notADirectory {main : PluginConfig} {directory : String} (hmain : HeldBy files env path main)
      (haccepted : main.validate = .ok ()) (hdirectory : main.collectorPath = some directory)
      (hentries : files.list? directory = none) : Unloadable files env path (.invalid (.notADirectory directory))
  | unlisted {main : PluginConfig} {directory reason : String} (hmain : HeldBy files env path main)
      (haccepted : main.validate = .ok ()) (hdirectory : main.collectorPath = some directory)
      (hentries : files.list? directory = some (.error reason)) : Unloadable files env path (.io reason)
  | jobs {main : PluginConfig} {directory : String} {entries : List (String × Bool)} {before : List String}
      {p : String} {after : List String} {e : Error} (hmain : HeldBy files env path main)
      (haccepted : main.validate = .ok ()) (hdirectory : main.collectorPath = some directory)
      (hentries : files.list? directory = some (.ok entries))
      (hpaths : Files.Ascending directory entries (before ++ p :: after))
      (hbefore : ∀ q ∈ before, ∃ jobs, CollectorsConfig.HeldBy files env q jobs)
      (hjobs : Unreadable files env (.invalid (.unreadableJobs p)) CollectorsConfig.ofDocument p e) :
      Unloadable files env path e
  | merged {main : PluginConfig} {directory : String} {entries : List (String × Bool)} {paths : List String}
      {parts : List CollectorsConfig} {fault : Fault} (hmain : HeldBy files env path main)
      (haccepted : main.validate = .ok ()) (hdirectory : main.collectorPath = some directory)
      (hentries : files.list? directory = some (.ok entries)) (hpaths : Files.Ascending directory entries paths)
      (hparts : List.Forall₂ (CollectorsConfig.HeldBy files env) paths parts)
      (hrefused : (main.withJobs parts).validate = .error fault) : Unloadable files env path (.invalid fault)

theorem load_eq (files : Files) (env : Environment) (path : String) :
    load files env path = fromFile files env .parse ofDocument path >>= fun c => checked c c.validate := by
  rw [fromFile]
  cases hread : readFile files path with
  | error e => simp only [load, hread]; rfl
  | ok text => simp only [load, hread]; rfl

theorem load_eq_ok_iff {c : PluginConfig} :
    load files env path = .ok c ↔ HeldBy files env path c ∧ c.validate = .ok () := by
  simp only [load_eq, bind_eq_ok_iff, fromFile_eq_ok_iff, checked_eq_ok_iff]
  exact ⟨fun ⟨_, hmain, hcheck, heq⟩ => heq ▸ ⟨hmain, hcheck⟩, fun ⟨hmain, hcheck⟩ => ⟨c, hmain, hcheck, rfl⟩⟩

theorem load_eq_error_iff {e : Error} :
    load files env path = .error e ↔ Unreadable files env .parse ofDocument path e ∨
      ∃ main fault, HeldBy files env path main ∧ main.validate = .error fault ∧ e = .invalid fault := by
  simp only [load_eq, bind_eq_error_iff, fromFile_eq_error_iff, fromFile_eq_ok_iff, checked_eq_error_iff,
    exists_and_left]

/-- The settings of a main file with the jobs of the directory that they name. -/
def withDirectory (files : Files) (env : Environment) (main : PluginConfig) : Except Error PluginConfig :=
  match main.collectorPath with
  | none => .ok main
  | some directory => do
    let others ← CollectorsConfig.loadDirectory files env directory
    let c := { main with collectors := main.collectors.merge others }
    checked c c.validate

theorem loadWithJobs_eq (files : Files) (env : Environment) (path : String) :
    loadWithJobs files env path = load files env path >>= withDirectory files env := by
  rfl

theorem withDirectory_of_none {main : PluginConfig} (hnone : main.collectorPath = none) :
    withDirectory files env main = .ok main := by
  rw [withDirectory, hnone]

theorem withDirectory_of_missing {main : PluginConfig} {directory : String}
    (hdirectory : main.collectorPath = some directory) (hentries : files.list? directory = none) :
    withDirectory files env main = .error (.invalid (.notADirectory directory)) := by
  rw [withDirectory, hdirectory]
  simp only [CollectorsConfig.loadDirectory, hentries]
  rfl

theorem withDirectory_of_unlisted {main : PluginConfig} {directory reason : String}
    (hdirectory : main.collectorPath = some directory) (hentries : files.list? directory = some (.error reason)) :
    withDirectory files env main = .error (.io reason) := by
  rw [withDirectory, hdirectory]
  simp only [CollectorsConfig.loadDirectory, hentries]
  rfl

theorem withDirectory_of_entries {main : PluginConfig} {directory : String} {entries : List (String × Bool)}
    (hdirectory : main.collectorPath = some directory) (hentries : files.list? directory = some (.ok entries)) :
    withDirectory files env main =
      CollectorsConfig.loadFiles files env (Files.jobFiles directory entries) >>= fun others =>
        checked { main with collectors := main.collectors.merge others }
          (validate { main with collectors := main.collectors.merge others }) := by
  rw [withDirectory, hdirectory]
  simp only [CollectorsConfig.loadDirectory, hentries]

theorem loadWithJobs_eq_ok_iff {c : PluginConfig} :
    loadWithJobs files env path = .ok c ↔ Loaded files env path c := by
  rw [loadWithJobs_eq]
  simp only [bind_eq_ok_iff, load_eq_ok_iff]
  constructor
  · rintro ⟨main, ⟨hmain, haccepted⟩, h⟩
    cases hdirectory : main.collectorPath with
    | none =>
      rw [withDirectory_of_none hdirectory] at h
      cases h
      exact .alone hmain haccepted hdirectory
    | some directory =>
      match hentries : files.list? directory with
      | none =>
        rw [withDirectory_of_missing hdirectory hentries] at h
        cases h
      | some (.error reason) =>
        rw [withDirectory_of_unlisted hdirectory hentries] at h
        cases h
      | some (.ok entries) =>
        rw [withDirectory_of_entries hdirectory hentries] at h
        simp only [bind_eq_ok_iff, CollectorsConfig.loadFiles_eq_ok_iff, checked_eq_ok_iff] at h
        obtain ⟨others, ⟨parts, hparts, rfl⟩, hmerged, rfl⟩ := h
        exact .merged hmain haccepted hdirectory hentries (Files.ascending_jobFiles directory entries) hparts hmerged
  · intro h
    cases h with
    | alone hmain haccepted hnone => exact ⟨c, ⟨hmain, haccepted⟩, withDirectory_of_none hnone⟩
    | @merged main directory entries paths parts hmain haccepted hdirectory hentries hpaths hparts hmerged =>
      refine ⟨main, ⟨hmain, haccepted⟩, ?_⟩
      rw [withDirectory_of_entries hdirectory hentries, ← Files.ascending_iff.mp hpaths]
      simp only [bind_eq_ok_iff, CollectorsConfig.loadFiles_eq_ok_iff, checked_eq_ok_iff]
      exact ⟨_, ⟨parts, hparts, rfl⟩, hmerged, rfl⟩

theorem loadWithJobs_eq_error_iff {e : Error} :
    loadWithJobs files env path = .error e ↔ Unloadable files env path e := by
  rw [loadWithJobs_eq]
  simp only [bind_eq_error_iff, load_eq_error_iff, load_eq_ok_iff]
  constructor
  · rintro ((hmain | ⟨main, fault, hmain, hrefused, rfl⟩) | ⟨main, ⟨hmain, haccepted⟩, h⟩)
    · exact .main hmain
    · exact .refused hmain hrefused
    cases hdirectory : main.collectorPath with
    | none =>
      rw [withDirectory_of_none hdirectory] at h
      cases h
    | some directory =>
      match hentries : files.list? directory with
      | none =>
        rw [withDirectory_of_missing hdirectory hentries] at h
        cases h
        exact .notADirectory hmain haccepted hdirectory hentries
      | some (.error reason) =>
        rw [withDirectory_of_unlisted hdirectory hentries] at h
        cases h
        exact .unlisted hmain haccepted hdirectory hentries
      | some (.ok entries) =>
        have hpaths := Files.ascending_jobFiles directory entries
        rw [withDirectory_of_entries hdirectory hentries] at h
        simp only [bind_eq_error_iff, CollectorsConfig.loadFiles_eq_error_iff, CollectorsConfig.loadFiles_eq_ok_iff,
          checked_eq_error_iff] at h
        obtain ⟨before, p, after, hsplit, hbefore, hjobs⟩ | ⟨others, ⟨parts, hparts, rfl⟩, fault, hrefused, rfl⟩ := h
        · exact .jobs hmain haccepted hdirectory hentries (hsplit ▸ hpaths) hbefore hjobs
        · exact .merged hmain haccepted hdirectory hentries hpaths hparts hrefused
  · intro h
    cases h with
    | main hmain => exact .inl (.inl hmain)
    | refused hmain hrefused => exact .inl (.inr ⟨_, _, hmain, hrefused, rfl⟩)
    | notADirectory hmain haccepted hdirectory hentries =>
      exact .inr ⟨_, ⟨hmain, haccepted⟩, withDirectory_of_missing hdirectory hentries⟩
    | unlisted hmain haccepted hdirectory hentries =>
      exact .inr ⟨_, ⟨hmain, haccepted⟩, withDirectory_of_unlisted hdirectory hentries⟩
    | jobs hmain haccepted hdirectory hentries hpaths hbefore hjobs =>
      refine .inr ⟨_, ⟨hmain, haccepted⟩, ?_⟩
      rw [withDirectory_of_entries hdirectory hentries, ← Files.ascending_iff.mp hpaths]
      exact bind_eq_error_iff.mpr
        (.inl (CollectorsConfig.loadFiles_eq_error_iff.mpr ⟨_, _, _, rfl, hbefore, hjobs⟩))
    | merged hmain haccepted hdirectory hentries hpaths hparts hrefused =>
      refine .inr ⟨_, ⟨hmain, haccepted⟩, ?_⟩
      rw [withDirectory_of_entries hdirectory hentries, ← Files.ascending_iff.mp hpaths]
      exact bind_eq_error_iff.mpr (.inr ⟨_, CollectorsConfig.loadFiles_eq_ok_iff.mpr ⟨_, hparts, rfl⟩,
        checked_eq_error_iff.mpr ⟨_, hrefused, rfl⟩⟩)

theorem Loaded.accepted {c : PluginConfig} (h : Loaded files env path c) : c.validate = .ok () := by
  cases h with
  | alone _ haccepted _ => exact haccepted
  | merged _ _ _ _ _ _ hmerged => exact hmerged

/-- Two file systems with the same main file, and the same files of jobs in the directory that it names, give the same
configuration, or fail alike. -/
theorem loadWithJobs_congr {other : Files} (hread : files.read path = other.read path)
    (hjobs : ∀ main directory, HeldBy files env path main → main.collectorPath = some directory →
      files.SameJobs other directory) :
    loadWithJobs files env path = loadWithJobs other env path := by
  have hload : load files env path = load other env path := by
    rw [load_eq, load_eq, fromFile, fromFile, readFile, readFile, hread]
  rw [loadWithJobs_eq, loadWithJobs_eq, ← hload]
  cases hmain : load files env path with
  | error e => rfl
  | ok main =>
    show withDirectory files env main = withDirectory other env main
    rw [withDirectory, withDirectory]
    cases hdirectory : main.collectorPath with
    | none => rfl
    | some directory =>
      have hsame := hjobs main directory (load_eq_ok_iff.mp hmain).1 hdirectory
      simp only [CollectorsConfig.loadDirectory_congr hsame]

/-- What is loaded, and why nothing is. A configuration is loaded exactly if it is the one that the files make up, and
it is accepted, with names of jobs that are all different. Nothing is loaded exactly for one of the reasons listed: a
file that cannot be read, or the directory that cannot be listed, is reported as such, a text of the wrong form as such
only of the main file. No path of a file of jobs is there twice if no name is in the directory twice; in a tree none is,
and every directory can be listed. Only the main file and the files of jobs matter, in whatever order they are listed
and whatever else is in the directory. -/
theorem loaded_settings (files : Files) (env : Environment) (path : String) :
    (∀ c, loadWithJobs files env path = .ok c ↔ Loaded files env path c) ∧
    (∀ c, loadWithJobs files env path = .ok c →
      c.validate = .ok () ∧ (c.collectors.portcheck.map (·.job.name)).Nodup) ∧
    (∀ e, loadWithJobs files env path = .error e ↔ Unloadable files env path e) ∧
    (∀ reason, loadWithJobs files env path = .error (.io reason) → (∃ p, files.read p = .error reason) ∨
      ∃ main directory, HeldBy files env path main ∧ main.collectorPath = some directory ∧
        files.list? directory = some (.error reason)) ∧
    (loadWithJobs files env path = .error .parse ↔ ∃ text, files.read path = .ok text ∧
      (Yaml.Tree.read (EnvReference.expand env text)).decode PluginConfig.ofDocument = .error .unfit) ∧
    (∀ directory entries paths, Files.Ascending directory entries paths → (entries.map (·.1)).Nodup →
      paths.Pairwise (· < ·)) ∧
    (∀ (t : FileTree) directory listing, t.files.list? directory = some listing →
      ∃ entries, listing = .ok entries ∧ (entries.map (·.1)).Nodup) ∧
    ∀ other : Files, files.read path = other.read path →
      (∀ main directory, HeldBy files env path main → main.collectorPath = some directory →
        files.SameJobs other directory) →
      loadWithJobs files env path = loadWithJobs other env path := by
  refine ⟨fun c => loadWithJobs_eq_ok_iff, fun c h => ?_, fun e => loadWithJobs_eq_error_iff, fun reason h => ?_, ?_,
    fun directory entries paths hpaths hnames => hpaths.strict hnames,
    fun t directory listing => Files.listing_of_tree, fun other => loadWithJobs_congr⟩
  · have haccepted := (loadWithJobs_eq_ok_iff.mp h).accepted
    exact ⟨haccepted, (validate_eq_ok_iff.mp haccepted).collectors.distinct⟩
  · cases loadWithJobs_eq_error_iff.mp h with
    | main hmain =>
      cases hmain with
      | io hread => exact .inl ⟨path, hread⟩
    | unlisted hmain _ hdirectory hentries => exact .inr ⟨_, _, hmain, hdirectory, hentries⟩
    | @jobs _ _ _ _ p _ _ _ _ _ _ _ _ hjobs =>
      cases hjobs with
      | io hread => exact .inl ⟨p, hread⟩
  · rw [loadWithJobs_eq_error_iff]
    constructor
    · intro h
      cases h with
      | main hmain =>
        cases hmain with
        | unfit hread hdecode => exact ⟨_, hread, hdecode⟩
      | jobs _ _ _ _ _ _ hjobs => cases hjobs
    · rintro ⟨text, hread, hdecode⟩
      exact .main (.unfit hread hdecode)

/-- A main file that names a directory with two files of jobs, listed in some way. -/
def twoJobFiles (entries : List (String × Bool)) : Files where
  read path :=
    if path = "main.yaml" then .ok "collector_path: jobs.d"
    else if path = "jobs.d/a.yml" then .ok "portcheck:\n- name: web\n  host: localhost\n  port: 80\n"
    else if path = "jobs.d/b.yaml" then .ok "portcheck:\n- name: mail\n  host: localhost\n  port: $\x7bPORT:-25\x7d\n"
    else .error "missing"
  list? directory := if directory = "jobs.d" then some (.ok entries) else none

/-- The two files last first, with another file between them. -/
def backwards : List (String × Bool) :=
  [("b.yaml", true), ("notes.txt", true), ("a.yml", true)]

/-- The two files, and one without a regular file behind it. -/
def forwards : List (String × Bool) :=
  [("a.yml", true), ("b.yaml", true), ("c.yaml", false)]

theorem loaded_settings_two_listings :
    ∃ c : PluginConfig, c.collectors = webJob.merge mailJob ∧
      loadWithJobs (twoJobFiles backwards) (fun _ => none) "main.yaml" = .ok c ∧
      loadWithJobs (twoJobFiles forwards) (fun _ => none) "main.yaml" = .ok c ∧
      c.validate = .ok () ∧ (c.collectors.portcheck.map (·.job.name)).Nodup ∧
      ["jobs.d/a.yml", "jobs.d/b.yaml"].Pairwise (· < ·) ∧
      ∃ p, (twoJobFiles backwards).read p = .error "missing" := by
  let files := twoJobFiles backwards
  let main : PluginConfig := { collectorPath := some "jobs.d" }
  -- The order of the paths is stated and not computed: a sort does not evaluate.
  have hpaths : Files.Ascending "jobs.d" backwards ["jobs.d/a.yml", "jobs.d/b.yaml"] :=
    ⟨by decide, by decide +kernel⟩
  have hmain : HeldBy files (fun _ => none) "main.yaml" main := ⟨_, rfl, by decide +kernel⟩
  have hweb : CollectorsConfig.HeldBy files (fun _ => none) "jobs.d/a.yml" webJob := ⟨_, rfl, by decide +kernel⟩
  have hmail : CollectorsConfig.HeldBy files (fun _ => none) "jobs.d/b.yaml" mailJob := ⟨_, rfl, by decide +kernel⟩
  have hsame (directory : String) : files.SameJobs (twoJobFiles forwards) directory := by
    refine ⟨?_, fun _ _ _ _ => rfl⟩
    show Files.SameListing (if directory = "jobs.d" then some (.ok backwards) else none)
      (if directory = "jobs.d" then some (.ok forwards) else none)
    split
    · exact .listed (by decide +kernel)
    · exact .missing
  obtain ⟨hloaded, haccepted, -, -, -, hstrict, -, hsettled⟩ :=
    loaded_settings files (fun _ => none) "main.yaml"
  obtain ⟨-, -, hfailed, hio, -⟩ := loaded_settings files (fun _ => none) "other.yaml"
  have hc := (hloaded _).mpr (.merged hmain rfl rfl rfl hpaths (.cons hweb (.cons hmail .nil)) rfl)
  have hother := (hsettled (twoJobFiles forwards) rfl fun _ directory _ _ => hsame directory).symm.trans hc
  have hmissing := (hfailed (.io "missing")).mpr (.main (.io rfl))
  -- The other main file holds no settings that could name a directory.
  have hunread := (hio _ hmissing).resolve_right fun ⟨_, _, ⟨_, hread, _⟩, _⟩ => by cases hread
  exact ⟨_, rfl, hc, hother, (haccepted _ hc).1, (haccepted _ hc).2, hstrict _ _ _ hpaths (by decide),
    hunread⟩

end PluginConfig

end ChartStream
