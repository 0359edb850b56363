import DeclaredSource.Proofs.Resource.Runs
import DeclaredSource.Proofs.Storage.Mirror
import Mathlib.Data.List.Forall2
import Mathlib.Data.Set.Insert

/-!
# A resource as a map

A resource over a directory answers every sequence of requests as a map from names to texts would,
and keeps the directory a mirror of that map. Each request is given by the runs of the store that it
is made of, an update by applying, and a sequence by its first request and the rest.
-/

namespace DeclaredSource.Resource

open Storage Disk

inductive Request where
  | create (filename : String) (declaration : Json)
  | update (filename : String) (declaration : Json)
  | apply (filename : String) (declaration : Json)
  | plan (filename : String) (declaration : Json)
  | read (state : FileState)
  | delete (state : FileState)

inductive Answer where
  | state (state : FileState)
  | outcome (outcome : Outcome)
  | applied (state : FileState) (outcome : Outcome)
  | deleted
  deriving DecidableEq

/-- An answer without its outcome. -/
def Answer.withoutOutcome : Answer → Answer
  | .applied kept _ => .state kept
  | answer => answer

namespace Request

def filename : Request → String
  | .create filename _ => filename
  | .update filename _ => filename
  | .apply filename _ => filename
  | .plan filename _ => filename
  | .read state => state.filename
  | .delete state => state.filename

def perform {m : Type → Type} [Monad m] [Files m] (resource : Resource) :
    Request → ExceptT ResourceError m Answer
  | .create filename declaration => return .state (← resource.create filename declaration)
  | .update filename declaration => return .state (← resource.update filename declaration)
  | .apply filename declaration => do
    let (state, outcome) ← resource.apply filename declaration
    return .applied state outcome
  | .plan filename declaration => return .outcome (← resource.plan filename declaration)
  | .read state => return .state (← resource.read state)
  | .delete state => do
    resource.delete state
    return .deleted

theorem perform_update {m : Type → Type} [Monad m] [LawfulMonad m] [Files m] (resource : Resource)
    (filename : String) (declaration : Json) :
    ((Request.update filename declaration).perform resource : ExceptT ResourceError m Answer) =
      (Request.apply filename declaration).perform resource >>=
        fun answer ↦ pure answer.withoutOutcome := by
  rw [perform, perform, update_eq_apply, bind_assoc, bind_assoc]
  exact bind_congr fun applied ↦ by rw [pure_bind, pure_bind, Answer.withoutOutcome]

end Request

/-- The names that a filename goes through. -/
def namesOf (filename : String) : List String :=
  (Path.ofString filename).components.filterMap Path.Component.name?

namespace Request

/-- What a map answers, and the map that it becomes. -/
def onMap (resource : Resource) (contents : Contents) :
    Request → Except ResourceError Answer × Contents
  | .create filename declaration =>
    match Generation.generate resource.mode declaration with
    | .error error => (.error (.generation error), contents)
    | .ok text => (.ok (.state ⟨filename, text⟩), contents.set (namesOf filename) (some text))
  | .update filename declaration =>
    match Generation.generate resource.mode declaration with
    | .error error => (.error (.generation error), contents)
    | .ok text => (.ok (.state ⟨filename, text⟩), contents.set (namesOf filename) (some text))
  | .apply filename declaration =>
    match Generation.generate resource.mode declaration with
    | .error error => (.error (.generation error), contents)
    | .ok text =>
      (.ok (.applied ⟨filename, text⟩ (changeFrom (contents (namesOf filename)) text)),
        contents.set (namesOf filename) (some text))
  | .plan filename declaration =>
    match Generation.generate resource.mode declaration with
    | .error error => (.error (.generation error), contents)
    | .ok text => (.ok (.outcome (changeFrom (contents (namesOf filename)) text)), contents)
  | .read state =>
    match contents (namesOf state.filename) with
    | some text => (.ok (.state ⟨state.filename, text⟩), contents)
    | none =>
      (.error (.storage ⟨.read, resource.store.resolve state.filename, .notFound⟩), contents)
  | .delete state =>
    match contents (namesOf state.filename) with
    | some _ => (.ok .deleted, contents.set (namesOf state.filename) none)
    | none =>
      (.error (.storage ⟨.remove, resource.store.resolve state.filename, .notFound⟩), contents)

theorem onMap_update (resource : Resource) (contents : Contents) (filename : String)
    (declaration : Json) :
    (Request.update filename declaration).onMap resource contents =
      (((Request.apply filename declaration).onMap resource contents).1.map Answer.withoutOutcome,
        ((Request.apply filename declaration).onMap resource contents).2) := by
  rw [onMap, onMap]
  split <;> rfl

end Request

/-- The answer to each request in turn and the disk after it. -/
def trace (resource : Resource) : List Request → Disk → List (Except ResourceError Answer × Disk)
  | [], _ => []
  | request :: rest, disk =>
    let (answer, changed) := run (request.perform resource) disk
    (answer, changed) :: trace resource rest changed

/-- The answer to each request in turn and the map after it. -/
def traceOnMap (resource : Resource) :
    List Request → Contents → List (Except ResourceError Answer × Contents)
  | [], _ => []
  | request :: rest, contents =>
    let (answer, changed) := request.onMap resource contents
    (answer, changed) :: traceOnMap resource rest changed

section Steps

variable {resource : Resource} {base : List String} {before : FileTree}
  {keys : Set (List String)} {contents : Contents} {disk : Disk} {filename : String}
  {declaration : Json}

/-- The disk answers the request as the map does, and keeps the map that comes of it. -/
def Follows (resource : Resource) (before : FileTree) (base : List String)
    (keys : Set (List String)) (contents : Contents) (disk : Disk) (request : Request) : Prop :=
  ∃ changed : Disk, run (request.perform resource) disk =
    ((request.onMap resource contents).1, changed) ∧
    Tracks before base keys (request.onMap resource contents).2 changed

theorem create_step (h : Tracks before base keys contents disk)
    (hsetting : Setting resource.store base before keys)
    (hadmits : resource.store.Admits filename (namesOf filename))
    (hkey : namesOf filename ∈ keys) :
    Follows resource before base keys contents disk (.create filename declaration) := by
  unfold Follows
  rw [Request.perform, Request.onMap]
  cases hgenerate : Generation.generate resource.mode declaration with
  | error error =>
    have hfails : run (resource.create filename declaration) disk =
        (.error (.generation error), disk) := run_bind_error (run_generate_error hgenerate disk)
    exact ⟨disk, run_bind_error hfails, h⟩
  | ok text =>
    obtain ⟨changed, hwrite, htracks⟩ := h.write hsetting hadmits hkey text
    exact ⟨changed, run_bind_ok (run_create hgenerate hwrite), htracks⟩

theorem apply_step (h : Tracks before base keys contents disk)
    (hsetting : Setting resource.store base before keys)
    (hadmits : resource.store.Admits filename (namesOf filename))
    (hkey : namesOf filename ∈ keys) :
    Follows resource before base keys contents disk (.apply filename declaration) := by
  unfold Follows
  rw [Request.perform, Request.onMap]
  cases hgenerate : Generation.generate resource.mode declaration with
  | error error =>
    have hfails : run (resource.apply filename declaration) disk =
        (.error (.generation error), disk) := run_bind_error (run_generate_error hgenerate disk)
    exact ⟨disk, run_bind_error hfails, h⟩
  | ok text =>
    have hread := h.readIfPresent hsetting hadmits hkey
    by_cases hsame : contents (namesOf filename) = some text
    · rw [hsame] at hread
      refine ⟨disk, ?_, ?_⟩
      · rw [hsame]
        exact run_bind_ok (run_apply_same hgenerate hread)
      · dsimp only
        rwa [Contents.set_eq_self hsame]
    · obtain ⟨changed, hwrite, htracks⟩ := h.write hsetting hadmits hkey text
      exact ⟨changed, run_bind_ok (run_apply_other hgenerate hsame hread hwrite), htracks⟩

theorem update_step (h : Tracks before base keys contents disk)
    (hsetting : Setting resource.store base before keys)
    (hadmits : resource.store.Admits filename (namesOf filename))
    (hkey : namesOf filename ∈ keys) :
    Follows resource before base keys contents disk (.update filename declaration) := by
  have happly : Follows resource before base keys contents disk (.apply filename declaration) :=
    apply_step h hsetting hadmits hkey
  obtain ⟨changed, hrun, htracks⟩ := happly
  refine ⟨changed, ?_, ?_⟩
  · rw [Request.perform_update, Request.onMap_update]
    exact run_bind_pure hrun Answer.withoutOutcome
  · rw [Request.onMap_update]
    exact htracks

theorem plan_step (h : Tracks before base keys contents disk)
    (hsetting : Setting resource.store base before keys)
    (hadmits : resource.store.Admits filename (namesOf filename))
    (hkey : namesOf filename ∈ keys) :
    Follows resource before base keys contents disk (.plan filename declaration) := by
  unfold Follows
  rw [Request.perform, Request.onMap]
  cases hgenerate : Generation.generate resource.mode declaration with
  | error error =>
    have hfails : run (resource.plan filename declaration) disk =
        (.error (.generation error), disk) := run_bind_error (run_generate_error hgenerate disk)
    exact ⟨disk, run_bind_error hfails, h⟩
  | ok text =>
    have hread := h.readIfPresent hsetting hadmits hkey
    exact ⟨disk, run_bind_ok (run_plan hgenerate hread), h⟩

theorem read_step (h : Tracks before base keys contents disk)
    (hsetting : Setting resource.store base before keys) {state : FileState}
    (hadmits : resource.store.Admits state.filename (namesOf state.filename))
    (hkey : namesOf state.filename ∈ keys) :
    Follows resource before base keys contents disk (.read state) := by
  have hread := h.read hsetting hadmits hkey
  unfold Follows
  rw [Request.perform, Request.onMap]
  cases htext : contents (namesOf state.filename) with
  | some text =>
    rw [htext] at hread
    have hview : run (resource.read state) disk = (.ok ⟨state.filename, text⟩, disk) :=
      run_bind_ok (run_stored hread)
    exact ⟨disk, run_bind_ok hview, h⟩
  | none =>
    rw [htext] at hread
    have hview : run (resource.read state) disk =
        (.error (.storage ⟨.read, resource.store.resolve state.filename, .notFound⟩), disk) :=
      run_bind_error (run_stored hread)
    exact ⟨disk, run_bind_error hview, h⟩

theorem delete_step (h : Tracks before base keys contents disk)
    (hsetting : Setting resource.store base before keys) {state : FileState}
    (hadmits : resource.store.Admits state.filename (namesOf state.filename))
    (hkey : namesOf state.filename ∈ keys) :
    Follows resource before base keys contents disk (.delete state) := by
  unfold Follows
  rw [Request.perform, Request.onMap]
  cases htext : contents (namesOf state.filename) with
  | some text =>
    obtain ⟨changed, hremove, htracks⟩ := h.remove_file hsetting hadmits hkey htext
    have hdelete : run (resource.delete state) disk = (.ok (), changed) := run_stored hremove
    exact ⟨changed, run_bind_ok hdelete, htracks⟩
  | none =>
    have hremove := h.remove_missing hsetting hadmits hkey htext
    have hdelete : run (resource.delete state) disk =
        (.error (.storage ⟨.remove, resource.store.resolve state.filename, .notFound⟩), disk) :=
      run_stored hremove
    exact ⟨disk, run_bind_error hdelete, h⟩

theorem request_step (h : Tracks before base keys contents disk)
    (hsetting : Setting resource.store base before keys) {request : Request}
    (hadmits : resource.store.Admits request.filename (namesOf request.filename))
    (hkey : namesOf request.filename ∈ keys) :
    Follows resource before base keys contents disk request := by
  cases request with
  | create filename declaration => exact create_step h hsetting hadmits hkey
  | update filename declaration => exact update_step h hsetting hadmits hkey
  | apply filename declaration => exact apply_step h hsetting hadmits hkey
  | plan filename declaration => exact plan_step h hsetting hadmits hkey
  | read state => exact read_step h hsetting hadmits hkey
  | delete state => exact delete_step h hsetting hadmits hkey

end Steps

theorem trace_tracks {resource : Resource} {base : List String} {before : FileTree}
    {keys : Set (List String)} (hsetting : Setting resource.store base before keys)
    (requests : List Request)
    (hrequests : ∀ request ∈ requests,
      resource.store.Admits request.filename (namesOf request.filename) ∧
        namesOf request.filename ∈ keys)
    {contents : Contents} {disk : Disk} (h : Tracks before base keys contents disk) :
    List.Forall₂ (fun onDisk onMap ↦ onDisk.1 = onMap.1 ∧ Tracks before base keys onMap.2 onDisk.2)
      (trace resource requests disk) (traceOnMap resource requests contents) := by
  induction requests generalizing contents disk with
  | nil => exact .nil
  | cons request rest ih =>
    rw [List.forall_mem_cons] at hrequests
    obtain ⟨changed, hrun, htracks⟩ := request_step h hsetting hrequests.1.1 hrequests.1.2
    rw [trace, traceOnMap, hrun]
    exact .cons ⟨rfl, htracks⟩ (ih hrequests.2 htracks)

/-- Below a base directory that is missing or empty, and for filenames of which none leads through
another, every request of a sequence is answered as a map would answer it. After each of them the
files below the base directory are those of the map, the directories below it those that lead to
them, and all else is as it was but for the way to the base directory. -/
theorem follows_map {resource : Resource} {base : List String} {filenames : Set String}
    {disk : Disk} (hbase : resource.store.Based base)
    (hadmits : ∀ filename ∈ filenames, resource.store.Admits filename (namesOf filename))
    (hapart : ∀ filename ∈ filenames, ∀ other ∈ filenames,
      namesOf filename <+: namesOf other → namesOf filename = namesOf other)
    (hopen : disk.tree.Open base) (hclear : ∀ name, disk.tree.lookup (base ++ [name]) = none)
    (requests : List Request) (hrequests : ∀ request ∈ requests, request.filename ∈ filenames) :
    List.Forall₂
      (fun onDisk onMap ↦ onDisk.1 = onMap.1 ∧ Mirrors base onMap.2 onDisk.2.tree ∧
        Frames disk.tree base onDisk.2.tree)
      (trace resource requests disk) (traceOnMap resource requests .empty) := by
  have hsetting : Setting resource.store base disk.tree
      {key | ∃ filename ∈ filenames, namesOf filename = key} := by
    refine ⟨hbase, hopen, ?_⟩
    rintro _ ⟨filename, hfilename, rfl⟩ _ ⟨other, hother, rfl⟩
    exact hapart filename hfilename other hother
  have hstart : Tracks disk.tree base {key | ∃ filename ∈ filenames, namesOf filename = key}
      .empty disk := by
    refine ⟨.empty hclear, .refl disk.tree base, ?_⟩
    intro key hkey
    exact absurd rfl hkey
  have htrace := trace_tracks hsetting requests (fun request hrequest ↦
    ⟨hadmits _ (hrequests request hrequest), _, hrequests request hrequest, rfl⟩) hstart
  exact htrace.imp fun _ _ h ↦ ⟨h.1, h.2.mirrors, h.2.frames⟩

/-- A resource over a directory of its own, reading leniently. -/
def sample : Resource :=
  ⟨⟨Path.ofString "/out/gen"⟩, .lenient⟩

def packageNamed (name : String) : Json :=
  .object [("packageName", .string name)]

/-- One file in a directory and one beside it, written, planned for, read and deleted. -/
def sampleRequests : List Request :=
  [.create "pkg/lib.go" (packageNamed "lib"), .apply "main.go" (packageNamed "main"),
    .plan "pkg/lib.go" (packageNamed "other"), .read ⟨"main.go", ""⟩,
    .delete ⟨"pkg/lib.go", ""⟩, .delete ⟨"pkg/lib.go", ""⟩]

theorem follows_map_sample :
    List.Forall₂
      (fun onDisk onMap ↦ onDisk.1 = onMap.1 ∧ Mirrors ["out", "gen"] onMap.2 onDisk.2.tree ∧
        Frames bare.tree ["out", "gen"] onDisk.2.tree)
      (trace sample sampleRequests bare) (traceOnMap sample sampleRequests .empty) := by
  have hbare (names : List String) (bytes : ByteArray) :
      bare.tree.lookup names ≠ some (.file bytes) := by
    change (if names.reverse = [] then some Entry.directory else none) ≠ _
    split <;> simp
  have hadmits : ∀ filename ∈ ({"pkg/lib.go", "main.go"} : Set String),
      sample.store.Admits filename (namesOf filename) := by
    rintro _ (rfl | rfl)
    · exact ⟨rfl, rfl, by decide, rfl, by decide, by decide⟩
    · exact ⟨rfl, rfl, by decide, rfl, by decide, by decide⟩
  have hapart : ∀ filename ∈ ({"pkg/lib.go", "main.go"} : Set String),
      ∀ other ∈ ({"pkg/lib.go", "main.go"} : Set String),
        namesOf filename <+: namesOf other → namesOf filename = namesOf other := by
    have hlib : namesOf "pkg/lib.go" = ["pkg", "lib.go"] := rfl
    have hmain : namesOf "main.go" = ["main.go"] := rfl
    rintro _ (rfl | rfl) _ (rfl | rfl) <;> simp [hlib, hmain]
  have hrequests : ∀ request ∈ sampleRequests,
      request.filename ∈ ({"pkg/lib.go", "main.go"} : Set String) := by
    simp [sampleRequests, Request.filename]
  exact follows_map ⟨rfl, by decide⟩ hadmits hapart (fun outer _ bytes ↦ hbare outer bytes)
    (fun _ ↦ rfl) sampleRequests hrequests

/-- What the names of a filename do not say decides as well. No file has a path with a trailing
slash or a null character, although the components of both filenames are names; and two filenames
with the same names are one file, so one of them is read once the other is created. -/
theorem spelling_decides :
    ((Path.ofString "lib.go/").components = [.name "lib.go"] ∧
      (Path.ofString "a\x00b").components = [.name "a\x00b"] ∧
      Generation.generate .lenient (packageNamed "lib") = .ok "package lib\n") ∧
    (run (sample.create "lib.go/" (packageNamed "lib")) bare).1 =
      .error (.storage ⟨.replace, Path.ofString "/out/gen/lib.go/", .notADirectory⟩) ∧
    (run (sample.create "a\x00b" (packageNamed "lib")) bare).1 =
      .error (.storage ⟨.replace, Path.ofString "/out/gen/a\x00b", .invalidArgument⟩) ∧
    (run (sample.read ⟨"pkg//lib.go", ""⟩)
      (run (sample.create "pkg/lib.go" (packageNamed "lib")) bare).2).1 =
      .ok ⟨"pkg//lib.go", "package lib\n"⟩ := by
  refine ⟨⟨rfl, rfl, rfl⟩, rfl, rfl, ?_⟩
  have hadmits : sample.store.Admits "pkg//lib.go" (["pkg"] ++ ["lib.go"]) :=
    ⟨rfl, rfl, by decide, rfl, by decide, by decide⟩
  have hplaced : sample.store.Placed "pkg//lib.go" (["out", "gen"] ++ ["pkg"]) "lib.go" :=
    hadmits.placed ⟨rfl, by decide⟩
  have hlookup : (run (sample.create "pkg/lib.go" (packageNamed "lib")) bare).2.tree.lookup
      (["out", "gen"] ++ ["pkg"] ++ ["lib.go"]) = some (.file "package lib\n".toUTF8) := rfl
  exact congrArg Prod.fst (run_bind_ok (run_stored (Store.read_file hplaced hlookup)))

end DeclaredSource.Resource
