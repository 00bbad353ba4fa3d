import RoveMapping.Tuner.TrialWorld

/-! # The first trial of a study

Under `/data` there is nothing but the directories of this trial and of its bag, and nothing stands in
their way: what the trial makes and writes there succeeds.
-/
namespace RoveMapping.Tuner.TrialRunner
open Resumption PosixPath
set_option autoImplicit false

structure Trial.First (trial : Trial) : Prop where
  id : trial.id = "trial_0"
  root : trial.opts.outputRoot = dataRoot
  bags : trial.bags = ["hallway"]

def trialDir : Path := ⟨"/", [], ["data", "trial_0"]⟩

def hallwayDir : Path := ⟨"/", [], ["data", "trial_0", "hallway"]⟩

/-- The directories of the trial and those on the way. -/
def places : List Place := [[], ["data"], ["trial_0", "data"], ["hallway", "trial_0", "data"]]

/-- Nothing but these directories, and no file where one of them belongs. -/
structure Calm (w : World) : Prop where
  running : w.procs.exited = none
  dirs : ∀ place ∈ w.dirs, place ∈ places
  files : ∀ place ∈ places, w.isFile place = false

section Names

variable {trial : Trial}

theorem Trial.First.dir_eq (h : trial.First) : trial.dir = trialDir := by
  rw [Trial.dir, h.id, h.root]
  decide +kernel

theorem Trial.First.child_eq (h : trial.First) : trial.dir.child (bagName "hallway") = hallwayDir := by
  rw [h.dir_eq]
  decide +kernel

theorem Trial.First.trail (h : trial.First) : trial.dir.trail ⊆ places := by
  rw [h.dir_eq]
  decide

theorem Trial.First.child_trail (h : trial.First) : (trial.dir.child (bagName "hallway")).trail ⊆ places := by
  rw [h.child_eq]
  decide

theorem Trial.First.not_place (h : trial.First) {name : String} (hName : name ≠ "hallway") :
    name :: trial.dir.place ∉ places := by
  rw [h.dir_eq]
  simp [places, trialDir, Path.place, enter, hName]

theorem Trial.First.not_place_child (h : trial.First) (name : String) :
    name :: (trial.dir.child (bagName "hallway")).place ∉ places := by
  rw [h.child_eq]
  simp [places, hallwayDir, Path.place, enter]

end Names

section Calm

variable (parses : List Char → Bool) (i : Thread) {w : World} {dir : Path} {place : Place} {name : String}

theorem calm_blank : Calm World.blank where
  running := rfl
  dirs := by decide
  files := by decide

theorem Calm.makeDir (h : Calm w) (hTrail : dir.trail ⊆ places) : Calm (w.makeDir dir) where
  running := h.running
  dirs place hPlace := (List.mem_append.mp hPlace).elim (fun h => hTrail h) (h.dirs place)
  files := h.files

theorem Calm.put (h : Calm w) (hName : name :: place ∉ places) (content : Content) : Calm (w.put place name content) where
  running := h.running
  dirs := h.dirs
  files other hOther := by
    rw [World.isFile_put, h.files other hOther]
    rintro rfl
    exact hName hOther

theorem Calm.obstructed (h : Calm w) (hTrail : dir.trail ⊆ places) : w.obstructed dir = false := by
  rw [World.obstructed, List.any_eq_false]
  intro place hPlace
  rw [h.files place (hTrail hPlace)]
  decide

theorem sem_mkdir (h : Calm w) (hTrail : dir.trail ⊆ places) :
    sem parses i (.mkdir dir) obliging w = some (.ok (), w.makeDir dir) := by
  simp [sem, effect, obliging, h.running, h.obstructed hTrail]

theorem sem_write (h : Calm w) (hName : name :: dir.place ∉ places) {content : Content} :
    sem parses i (.write dir name content) obliging w = some (.ok (), w.put dir.place name content) := by
  have hFree : name :: dir.place ∉ w.dirs := fun hDir => hName (h.dirs _ hDir)
  simp [sem, effect, obliging, h.running, hFree]

theorem sem_render {rendered : List Char} {overrides : List (String × Template.Override)} (h : Calm w)
    (hTrail : dir.trail ⊆ places) (hName : "trial.launch.py" :: dir.place ∉ places)
    (hRender : Template.render parses overrides Template.launchText = .ok rendered) :
    sem parses i (.render overrides dir) obliging w =
      some (.ok (), (w.makeDir dir).put dir.place "trial.launch.py" (.launch rendered)) := by
  have hFree : "trial.launch.py" :: dir.place ∉ (w.makeDir dir).dirs := fun hDir => hName ((h.makeDir hTrail).dirs _ hDir)
  simp only [sem, effect, h.running, hRender, h.obstructed hTrail, obliging, if_neg hFree]
  rfl

end Calm
end RoveMapping.Tuner.TrialRunner
