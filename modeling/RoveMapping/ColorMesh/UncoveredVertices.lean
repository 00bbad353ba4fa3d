import RoveMapping.ColorMesh.Sampling

/-! # The vertices that no frame shows

`read_mesh` and steps 5 to 8 of `main`. The colours of the mesh that is read are not looked at.
-/
namespace RoveMapping.ColorMesh
open Blend
set_option autoImplicit false

/-- The mesh that Open3D has read; the colours are missing where the file has none. -/
structure InputMesh (K : Type) (n : ℕ) where
  vertices : Fin n → Point K
  triangles : List (Fin 3 → ℕ)
  vertexColors : Option (Fin n → Fin 3 → K)

section Model

variable {K : Type} [Field K] [LinearOrder K] {n : ℕ}

/-- `V` and `F`; `none` is the exit on a mesh without vertices. -/
def readMesh (m : InputMesh K n) : Option ((Fin n → Point K) × List (Fin 3 → ℕ)) :=
  if n = 0 then none else some (m.vertices, m.triangles)

def Job.onMesh (job : Job K n) (m : InputMesh K n) : Job K n :=
  { job with vertices := m.vertices, triangles := m.triangles }

/-- Steps 5 to 8 of `main`, with the other inputs taken from `job`. -/
def colorMeshFile [FloorRing K] (job : Job K n) (m : InputMesh K n) (frames : List (String × List (ℕ × Image))) :
    Option (Mesh K n) := do
  let (V, F) ← readMesh m
  colorMesh { job with vertices := V, triangles := F } frames

/-- Mid-grey, as Open3D holds it. -/
def grey : K := ((128 : ℕ) : K) / ((255 : ℕ) : K)

def InputMesh.original (m : InputMesh K n) (i : Fin n) (k : Fin 3) : K :=
  match m.vertexColors with
  | some colors => colors i k
  | none => grey

/-- No keyframe gives the vertex a sample. -/
def Uncovered [FloorRing K] (job : Job K n) (m : InputMesh K n) (frames : List (String × List (ℕ × Image))) (i : Fin n) : Prop :=
  samplesOf (job.onMesh m) frames i = []

structure LeavesAlone [FloorRing K] (job : Job K n) (m : InputMesh K n) (frames : List (String × List (ℕ × Image)))
    (out : Mesh K n) : Prop where
  vertices : out.vertices = m.vertices
  triangles : out.triangles = m.triangles
  uncovered : ∀ i, Uncovered job m frames i → ∀ k, out.vertexColors i k = m.original i k

variable [FloorRing K] [IsStrictOrderedRing K] {job : Job K n} {m : InputMesh K n}
  {frames : List (String × List (ℕ × Image))} {out : Mesh K n}

omit [IsStrictOrderedRing K] in
theorem colorMeshFile_eq_some (hRun : colorMeshFile job m frames = some out) :
    ∃ acc, accumulate (job.onMesh m) frames = some acc ∧
      out = writeColoredMesh m.vertices m.triangles (finalizeColors acc) := by
  obtain ⟨⟨V, F⟩, hRead, hColor⟩ := Option.bind_eq_some_iff.mp hRun
  rw [readMesh] at hRead
  split at hRead
  · cases hRead
  · cases hRead
    obtain ⟨acc, hAcc, hWrite⟩ := Option.bind_eq_some_iff.mp hColor
    cases hWrite
    exact ⟨acc, hAcc, rfl⟩

theorem finalizeColors_of_uncovered {acc : Accumulator K n}
    (hAcc : accumulate (job.onMesh m) frames = some acc) {i : Fin n} (hUncovered : Uncovered job m frames i) (k : Fin 3) :
    finalizeColors acc i k = 128 := by
  have hWeight : acc.weight i = weight ((samplesOf (job.onMesh m) frames i).map (weighted k)) :=
    (accumulate_gathers hAcc i k).2
  rw [hUncovered, List.map_nil] at hWeight
  have hNone : ¬0 < acc.weight i := by
    rw [hWeight]
    exact lt_irrefl 0
  exact if_neg hNone

theorem vertexColors_of_uncovered (hRun : colorMeshFile job m frames = some out) {i : Fin n}
    (hUncovered : Uncovered job m frames i) (k : Fin 3) : out.vertexColors i k = grey := by
  obtain ⟨acc, hAcc, rfl⟩ := colorMeshFile_eq_some hRun
  change clip (((finalizeColors acc i k).toNat : K) / 255) 0 1 = grey
  have hByte : (128 : UInt8).toNat = 128 := rfl
  rw [finalizeColors_of_uncovered hAcc hUncovered k, hByte, grey]
  apply clip_of_mem
  constructor
  · positivity
  · norm_num

/-- Uncovered vertices are left alone only where they were grey before. -/
theorem leavesAlone_iff (hRun : colorMeshFile job m frames = some out) : LeavesAlone job m frames out ↔
    ∀ colors, m.vertexColors = some colors → ∀ i, Uncovered job m frames i → ∀ k, colors i k = grey := by
  have hGrey := @vertexColors_of_uncovered _ _ _ _ _ _ _ _ _ _ hRun
  constructor
  · intro h colors hColors i hUncovered k
    have hKept := h.uncovered i hUncovered k
    rw [hGrey hUncovered k, InputMesh.original, hColors] at hKept
    exact hKept.symm
  · intro h
    obtain ⟨acc, -, hOut⟩ := colorMeshFile_eq_some hRun
    constructor
    · rw [hOut]
      rfl
    · rw [hOut]
      rfl
    · intro i hUncovered k
      rw [hGrey hUncovered k, InputMesh.original]
      cases hColors : m.vertexColors with
      | none => rfl
      | some colors => exact (h colors hColors i hUncovered k).symm

end Model

/-! ## A red mesh behind the camera -/

section RedMesh

/-- The first vertex is in front of the camera, the second behind it. -/
def redMesh : InputMesh ℚ 2 where
  vertices := ![⟨0, 0, 1⟩, ⟨0, 0, -1⟩]
  triangles := [![0, 1, 0]]
  vertexColors := some fun _ => ![1, 0, 0]

def redMeshJob : Job ℚ 2 := { redJob with vertices := redMesh.vertices, triangles := redMesh.triangles }

/-- One camera has recorded nothing, the other one image. -/
def redMeshFrames : List (String × List (ℕ × Image)) :=
  decodeKeyframes (("/cam_left/image_raw", []) :: redBlobs)

theorem redMesh_runs : (colorMeshFile redMeshJob redMesh redMeshFrames).isSome := by decide +kernel

/-- The image is decoded and shows the first vertex only. -/
theorem redMesh_samples :
    (fun i => (samplesOf (redMeshJob.onMesh redMesh) redMeshFrames i).length) = ![1, 0] := by decide +kernel

theorem redMesh_uncovered : Uncovered redMeshJob redMesh redMeshFrames 1 :=
  List.length_eq_zero_iff.mp (congrFun redMesh_samples 1)

theorem leavesAlone_iff_red_mesh : ∃ out, colorMeshFile redMeshJob redMesh redMeshFrames = some out ∧
    (LeavesAlone redMeshJob redMesh redMeshFrames out ↔ ∀ colors, redMesh.vertexColors = some colors →
      ∀ i, Uncovered redMeshJob redMesh redMeshFrames i → ∀ k, colors i k = grey) := by
  obtain ⟨out, hRun⟩ := Option.isSome_iff_exists.mp redMesh_runs
  exact ⟨out, hRun, leavesAlone_iff hRun⟩

/-- The vertex behind the camera is written grey. -/
theorem leavesAlone_red_mesh : ¬∀ (n : ℕ) (job : Job ℚ n) (m : InputMesh ℚ n) (frames : List (String × List (ℕ × Image)))
    (out : Mesh ℚ n), colorMeshFile job m frames = some out → LeavesAlone job m frames out := by
  intro hAlways
  obtain ⟨out, hRun⟩ := Option.isSome_iff_exists.mp redMesh_runs
  have hUncovered := redMesh_uncovered
  have hRed : out.vertexColors 1 0 = 1 := (hAlways 2 redMeshJob redMesh redMeshFrames out hRun).uncovered 1 hUncovered 0
  rw [vertexColors_of_uncovered hRun hUncovered 0, grey] at hRed
  exact absurd hRed (by norm_num)

end RedMesh

end RoveMapping.ColorMesh
