import Mathlib.Data.List.GetD
import Mathlib.Data.Rat.Floor
import RoveMapping.ColorMesh.Coloring

/-! # What becomes of the colours

The source's own red, green and blue are read from the message by its encoding. Each vertex is
compared with the depth-weighted average of the pixels that it was seen at.
-/
namespace RoveMapping.ColorMesh
open Blend
set_option autoImplicit false

inductive Channel where
  | red
  | green
  | blue
deriving DecidableEq, Repr

/-- The place of a channel in OpenCV's order. -/
def Channel.bgr : Channel → Fin 3
  | .red => 2
  | .green => 1
  | .blue => 0

/-- The place of a channel in a row of Open3D's `vertex_colors`. -/
def Channel.rgb : Channel → Fin 3
  | .red => 0
  | .green => 1
  | .blue => 2

def Channel.ofBgr : Fin 3 → Channel
  | 0 => .blue
  | 1 => .green
  | 2 => .red

theorem Channel.rev_bgr (channel : Channel) : channel.bgr.rev = channel.rgb := by
  cases channel <;> rfl

theorem Channel.ofBgr_bgr (channel : Channel) : ofBgr channel.bgr = channel := by
  cases channel <;> rfl

theorem Channel.bgr_ofBgr : ∀ k, (ofBgr k).bgr = k := by decide

def ImageMsg.offset (msg : ImageMsg) (r c : ℕ) (channel : Channel) : ℕ :=
  if msg.encoding = "mono8" then r * msg.width + c
  else if msg.encoding = "rgb8" then (r * msg.width + c) * 3 + channel.rgb
  else (r * msg.width + c) * 3 + channel.bgr

def ImageMsg.component (msg : ImageMsg) (channel : Channel) (r c : ℕ) : ℕ :=
  (msg.pixels.getD (msg.offset r c channel) 0).toNat

theorem reshape_eq_some {pixels : List UInt8} {height width channels : ℕ}
    {img : Fin height → Fin width → Fin channels → UInt8} (hReshape : reshape pixels height width channels = some img)
    (r : Fin height) (c : Fin width) (k : Fin channels) :
    img r c k = pixels.getD ((r * width + c) * channels + k) 0 := by
  rw [reshape] at hReshape
  split at hReshape
  · rename_i hSize
    cases hReshape
    have hLt : (r * width + c) * channels + k < pixels.length := hSize ▸ cell_lt r.2 c.2 k.2
    rw [List.getD_eq_getElem _ _ hLt]
    rfl
  · cases hReshape

structure Shows (msg : ImageMsg) (image : Image) : Prop where
  height : image.height = msg.height
  width : image.width = msg.width
  pixel : ∀ r c channel, (image.pixel r c (Channel.bgr channel)).toNat = msg.component channel r c

theorem shows_of_decodeImage {msg : ImageMsg} {image : Image} (hDecode : decodeImage msg = some image) :
    Shows msg image := by
  rw [decodeImage] at hDecode
  split at hDecode
  · rename_i hRgb
    obtain ⟨img, hReshape, rfl⟩ := Option.map_eq_some_iff.mp hDecode
    refine ⟨rfl, rfl, fun r c channel => ?_⟩
    have hPixel := reshape_eq_some hReshape r c channel.bgr.rev
    rw [channel.rev_bgr] at hPixel
    change (img r c channel.bgr.rev).toNat = _
    rw [channel.rev_bgr, hPixel]
    simp [ImageMsg.component, ImageMsg.offset, hRgb]
  · rename_i hRgb
    split at hDecode
    · rename_i hBgr
      obtain ⟨img, hReshape, rfl⟩ := Option.map_eq_some_iff.mp hDecode
      refine ⟨rfl, rfl, fun r c channel => ?_⟩
      change (img r c channel.bgr).toNat = _
      rw [reshape_eq_some hReshape]
      simp [ImageMsg.component, ImageMsg.offset, hBgr]
    · split at hDecode
      · rename_i hMono
        obtain ⟨img, hReshape, hCvt⟩ := Option.bind_eq_some_iff.mp hDecode
        rw [cvtGray2bgr] at hCvt
        split at hCvt
        · cases hCvt
        · cases hCvt
          refine ⟨rfl, rfl, fun r c channel => ?_⟩
          change (img r c 0).toNat = _
          rw [reshape_eq_some hReshape]
          simp [ImageMsg.component, ImageMsg.offset, hMono]
      · cases hDecode

theorem keyframe_eq_some {blob : List UInt8} {kf : ℕ × Image} (hKeyframe : keyframe blob = some kf) :
    ∃ msg, readImageMsg blob = some msg ∧ decodeImage msg = some kf.2 ∧ kf.1 = msg.tNs := by
  obtain ⟨⟨tNs, fid, img⟩, hParse, rfl⟩ := Option.map_eq_some_iff.mp hKeyframe
  obtain ⟨msg, hRead, hParse⟩ := Option.bind_eq_some_iff.mp hParse
  obtain ⟨img, hDecode, hParse⟩ := Option.bind_eq_some_iff.mp hParse
  cases hParse
  exact ⟨msg, hRead, hDecode, rfl⟩

structure View (K : Type) where
  camoptMap : Transform K
  cam : Intrinsics K
  msg : ImageMsg

section Averages

variable {K : Type} [Field K] [LinearOrder K] {n : ℕ}

def viewOf (job : Job K n) (cam : String) (baseCamopt : Transform K) (blob : List UInt8) : Option (View K) := do
  let msg ← readImageMsg blob
  let _ ← decodeImage msg
  let mapBase ← job.interpPose (msg.tNs + job.timeOffsetNs)
  let camoptMap ← linalgInv (mapBase * baseCamopt)
  return ⟨camoptMap, job.intrinsics cam, msg⟩

theorem viewOf_eq_none {job : Job K n} {cam : String} {baseCamopt : Transform K} {blob : List UInt8} (hKeyframe : keyframe blob = none) :
    viewOf job cam baseCamopt blob = none := by
  rw [keyframe, parseImageMsg] at hKeyframe
  rw [viewOf]
  cases hRead : readImageMsg blob with
  | none => rfl
  | some msg =>
      cases hDecode : decodeImage msg with
      | none => simp [hDecode]
      | some img => simp [hRead, hDecode] at hKeyframe

def viewsOf (job : Job K n) (messages : String × List (List UInt8)) : List (View K) :=
  let cam := camFrameIdFromTopic messages.1
  match job.baseCamopt cam with
  | none => []
  | some baseCamopt => messages.2.filterMap (viewOf job cam baseCamopt)

def views (job : Job K n) (blobs : List (String × List (List UInt8))) : List (View K) := blobs.flatMap (viewsOf job)

def View.point (view : View K) (job : Job K n) (i : Fin n) : Point K := transformPoint view.camoptMap (job.vertices i)

def View.sees (view : View K) (job : Job K n) (i : Fin n) : Option (K × K) :=
  locate job view.cam view.msg.height view.msg.width (view.point job i)

variable [FloorRing K]

/-- The bilinear sample of a channel of the source, truncated as the code truncates it. -/
def ImageMsg.sample (msg : ImageMsg) (uv : K × K) (channel : Channel) : ℤ :=
  ⌊interpolate (fun r c => (msg.component channel r c : K)) uv.1 uv.2⌋

def samples (job : Job K n) (i : Fin n) (channel : Channel) (views : List (View K)) : List (K × K) :=
  views.filterMap fun view =>
    (view.sees job i).map fun uv => (depthWeight (view.point job i).z, (view.msg.sample uv channel : K))

theorem samples_append (job : Job K n) (i : Fin n) (channel : Channel) (seen seen' : List (View K)) :
    samples job i channel (seen ++ seen') = samples job i channel seen ++ samples job i channel seen' :=
  List.filterMap_append

/-- The depth-weighted average of a channel of the source over the samples of a vertex, truncated. -/
def average (job : Job K n) (blobs : List (String × List (List UInt8))) (i : Fin n) (channel : Channel) : ℤ :=
  ⌊mean (samples job i channel (views job blobs))⌋

def Covered (job : Job K n) (blobs : List (String × List (List UInt8))) (i : Fin n) : Prop :=
  ∃ view ∈ views job blobs, (view.sees job i).isSome

instance (job : Job K n) (blobs : List (String × List (List UInt8))) (i : Fin n) : Decidable (Covered job blobs i) :=
  inferInstanceAs (Decidable (∃ view ∈ views job blobs, (view.sees job i).isSome))

theorem samples_ne_nil {job : Job K n} {blobs : List (String × List (List UInt8))} {i : Fin n} (hCovered : Covered job blobs i)
    (channel : Channel) : samples job i channel (views job blobs) ≠ [] := by
  obtain ⟨view, hView, hSees⟩ := hCovered
  obtain ⟨uv, hSees⟩ := Option.isSome_iff_exists.mp hSees
  exact List.ne_nil_of_mem (List.mem_filterMap.mpr ⟨view, hView, by rw [hSees, Option.map_some]⟩)

/-- On the scale of bytes each covered vertex is stored with the averages of the source in their places. -/
def ChannelsSurvive (job : Job K n) (blobs : List (String × List (List UInt8))) (mesh : Mesh K n) : Prop :=
  ∀ i, Covered job blobs i → ∀ channel : Channel,
    mesh.byte i channel.rgb = (average job blobs i channel : K)

end Averages

section Accumulation

variable {K : Type} [Field K] [LinearOrder K] [FloorRing K] [IsStrictOrderedRing K] {n : ℕ} {job : Job K n}

/-- The accumulators hold the weighted sums of the samples of some views. -/
def Collects (job : Job K n) (seen : List (View K)) (acc : Accumulator K n) : Prop :=
  ∀ i (channel : Channel), acc.color i channel.bgr = total (samples job i channel seen) ∧
    acc.weight i = weight (samples job i channel seen)

theorem component_mem (msg : ImageMsg) (channel : Channel) (r c : ℕ) :
    (msg.component channel r c : K) ∈ Set.Icc 0 255 := by
  have hByte : msg.component channel r c ≤ 255 := Nat.le_of_lt_succ (UInt8.toNat_lt _)
  exact ⟨Nat.cast_nonneg _, by exact_mod_cast hByte⟩

theorem sample_mem (msg : ImageMsg) (uv : K × K) (channel : Channel) :
    (msg.sample uv channel : K) ∈ Set.Icc 0 255 := by
  obtain ⟨hLower, hUpper⟩ := interpolate_mem (component_mem msg channel) uv.1 uv.2
  have hFloor : (msg.sample uv channel : K) ≤ interpolate (fun r c => (msg.component channel r c : K)) uv.1 uv.2 :=
    Int.floor_le _
  exact ⟨Int.cast_nonneg (Int.floor_nonneg.mpr hLower), hFloor.trans hUpper⟩

theorem sampleRow_eq {view : View K} {image : Image} (hShows : Shows view.msg image) {i : Fin n} {row : Sample K}
    (hRow : sampleRow job view.cam image (view.point job i) = some row) (channel : Channel) :
    ((row.color channel.bgr).toNat : K) * row.weight = total (samples job i channel [view]) ∧
      row.weight = weight (samples job i channel [view]) := by
  rw [sampleRow, hShows.height, hShows.width] at hRow
  cases hSees : locate job view.cam view.msg.height view.msg.width (view.point job i) with
  | none =>
      rw [hSees] at hRow
      cases hRow
      simp [samples, View.sees, hSees]
  | some uv =>
      have hInside := locate_inside hSees
      rw [← hShows.height, ← hShows.width] at hInside
      have hGrid : ∀ r c k, ((image.pixel r c k).toNat : K) = (view.msg.component (.ofBgr k) r c : K) := by
        intro r c k
        rw [← hShows.pixel, Channel.bgr_ofBgr]
      have hSample : bilinearSample image uv =
          some fun k => interpolate (fun r c => (view.msg.component (.ofBgr k) r c : K)) uv.1 uv.2 :=
        bilinearSample_eq hInside hGrid
      simp only [hSees, hSample, Option.bind_eq_bind, Option.bind_some] at hRow
      cases hRow
      have hByte := toNat_astypeUint8 (interpolate_mem (component_mem view.msg channel) uv.1 uv.2 : _ ∈ Set.Icc (0 : K) 255)
      have hColor : ((astypeUint8 (interpolate (fun r c => (view.msg.component channel r c : K)) uv.1 uv.2)).toNat : K) =
          (view.msg.sample uv channel : K) := by exact_mod_cast congrArg (Int.cast (R := K)) hByte
      simp only [samples, View.sees, List.filterMap_cons, List.filterMap_nil, hSees, Option.map_some, total_cons, total_nil,
        weight_cons, weight_nil, add_zero, Channel.ofBgr_bgr, hColor]
      exact ⟨mul_comm _ _, trivial⟩

theorem Collects.add {seen : List (View K)} {acc : Accumulator K n} (hAcc : Collects job seen acc) {view : View K}
    {image : Image} (hShows : Shows view.msg image) {rows : Fin n → Sample K}
    (hRows : ∀ i, sampleRow job view.cam image (view.point job i) = some (rows i)) :
    Collects job (seen ++ [view]) (acc.add rows) := by
  intro i channel
  obtain ⟨hColor, hWeight⟩ := hAcc i channel
  obtain ⟨hRowColor, hRowWeight⟩ := sampleRow_eq hShows (hRows i) channel
  rw [samples_append, total_append, weight_append, ← hColor, ← hWeight, ← hRowColor, ← hRowWeight]
  exact ⟨rfl, rfl⟩

theorem Collects.addFrame {seen : List (View K)} {acc acc' : Accumulator K n} (hAcc : Collects job seen acc)
    {cam : String} {baseCamopt : Transform K} {blob : List UInt8} {kf : ℕ × Image} (hKeyframe : keyframe blob = some kf)
    (hAdd : addFrame job cam baseCamopt acc kf = some acc') :
    Collects job (seen ++ (viewOf job cam baseCamopt blob).toList) acc' := by
  obtain ⟨msg, hRead, hDecode, hTime⟩ := keyframe_eq_some hKeyframe
  rw [RoveMapping.ColorMesh.addFrame, hTime] at hAdd
  cases hPose : job.interpPose (msg.tNs + job.timeOffsetNs) with
  | none =>
      rw [hPose] at hAdd
      cases hAdd
      simpa [viewOf, hRead, hDecode, hPose] using hAcc
  | some mapBase =>
      rw [hPose] at hAdd
      obtain ⟨rows, hRows, rfl⟩ := Option.map_eq_some_iff.mp hAdd
      obtain ⟨camoptMap, hInv, -⟩ := Option.bind_eq_some_iff.mp hRows
      rw [projectAndSample_eq _ _ hInv, allRows_eq_some] at hRows
      have hView : viewOf job cam baseCamopt blob = some ⟨camoptMap, job.intrinsics cam, msg⟩ := by
        simp [viewOf, hRead, hDecode, hPose, hInv]
      rw [hView]
      exact hAcc.add (shows_of_decodeImage hDecode) hRows

theorem Collects.addFrames {cam : String} {baseCamopt : Transform K} {messages : List (List UInt8)} {seen : List (View K)}
    {acc acc' : Accumulator K n} (hAcc : Collects job seen acc)
    (hAdd : (messages.filterMap keyframe).foldlM (RoveMapping.ColorMesh.addFrame job cam baseCamopt) acc = some acc') :
    Collects job (seen ++ messages.filterMap (viewOf job cam baseCamopt)) acc' := by
  induction messages generalizing seen acc with
  | nil =>
      cases hAdd
      simpa using hAcc
  | cons blob messages ih =>
      cases hKeyframe : keyframe blob with
      | none =>
          rw [List.filterMap_cons_none hKeyframe] at hAdd
          rw [List.filterMap_cons_none (viewOf_eq_none hKeyframe)]
          exact ih hAcc hAdd
      | some kf =>
          rw [List.filterMap_cons_some hKeyframe, List.foldlM_cons] at hAdd
          obtain ⟨next, hNext, hAdd⟩ := Option.bind_eq_some_iff.mp hAdd
          have hRest := ih (hAcc.addFrame hKeyframe hNext) hAdd
          cases hView : viewOf job cam baseCamopt blob <;> simpa [hView] using hRest

theorem Collects.addTopics {blobs : List (String × List (List UInt8))} {seen : List (View K)} {acc acc' : Accumulator K n}
    (hAcc : Collects job seen acc) (hAdd : (decodeKeyframes blobs).foldlM (addTopic job) acc = some acc') :
    Collects job (seen ++ views job blobs) acc' := by
  induction blobs generalizing seen acc with
  | nil =>
      cases hAdd
      simpa [views] using hAcc
  | cons messages blobs ih =>
      rw [decodeKeyframes, List.map_cons, List.foldlM_cons] at hAdd
      obtain ⟨next, hNext, hAdd⟩ := Option.bind_eq_some_iff.mp hAdd
      have hTopic : Collects job (seen ++ viewsOf job messages) next := by
        rw [addTopic] at hNext
        rw [viewsOf]
        cases hBase : job.baseCamopt (camFrameIdFromTopic messages.1) with
        | none =>
            rw [hBase] at hNext
            cases hNext
            simpa using hAcc
        | some baseCamopt =>
            rw [hBase] at hNext
            exact hAcc.addFrames hNext
      have hRest := ih hTopic hAdd
      rwa [List.append_assoc] at hRest

theorem accumulate_collects {blobs : List (String × List (List UInt8))} {acc : Accumulator K n}
    (hRun : accumulate job (decodeKeyframes blobs) = some acc) : Collects job (views job blobs) acc := by
  have hStart : Collects job [] (⟨fun _ _ => 0, fun _ => 0⟩ : Accumulator K n) := fun i channel => ⟨rfl, rfl⟩
  exact hStart.addTopics hRun

theorem depthWeight_pos (z : K) : 0 < depthWeight z := by
  have hSquare := mul_self_nonneg z
  exact one_div_pos.mpr (by linarith)

theorem mem_samples {i : Fin n} {channel : Channel} {seen : List (View K)} {s : K × K}
    (hs : s ∈ samples job i channel seen) : 0 < s.1 ∧ s.2 ∈ Set.Icc 0 255 := by
  obtain ⟨view, -, hView⟩ := List.mem_filterMap.mp hs
  obtain ⟨uv, -, rfl⟩ := Option.map_eq_some_iff.mp hView
  exact ⟨depthWeight_pos _, sample_mem view.msg uv channel⟩

/-- A covered vertex is stored with the averages of the source in OpenCV's order. -/
theorem stored_eq {blobs : List (String × List (List UInt8))} {mesh : Mesh K n}
    (hRun : colorMesh job (decodeKeyframes blobs) = some mesh) {i : Fin n} (hCovered : Covered job blobs i)
    (channel : Channel) : mesh.byte i channel.bgr = (average job blobs i channel : K) := by
  obtain ⟨acc, hAcc, hMesh⟩ := Option.bind_eq_some_iff.mp hRun
  cases hMesh
  obtain ⟨hColor, hWeight⟩ := accumulate_collects hAcc i channel
  have hSome := samples_ne_nil hCovered channel
  have hPositive : ∀ s ∈ samples job i channel (views job blobs), 0 < s.1 := fun s hs => (mem_samples hs).1
  have hMean : mean (samples job i channel (views job blobs)) ∈ Set.Icc (0 : K) 255 :=
    mean_mem hPositive hSome fun s hs => (mem_samples hs).2
  have hGood : 0 < acc.weight i := hWeight ▸ weight_pos hPositive hSome
  have hColors : finalizeColors acc i channel.bgr = astypeUint8 (mean (samples job i channel (views job blobs))) := by
    rw [finalizeColors, if_pos hGood, hColor, hWeight, ← mean, clip_of_mem hMean]
  rw [byte_writeColoredMesh, hColors, average, ← toNat_astypeUint8 hMean]
  norm_cast

theorem channelsSurvive_of_equal {blobs : List (String × List (List UInt8))} {mesh : Mesh K n}
    (hRun : colorMesh job (decodeKeyframes blobs) = some mesh)
    (hEqual : ∀ i, Covered job blobs i → average job blobs i .red = average job blobs i .blue) :
    ChannelsSurvive job blobs mesh := by
  intro i hCovered channel
  have hStored := stored_eq hRun hCovered
  cases channel with
  | red => exact (hStored .blue).trans (congrArg Int.cast (hEqual i hCovered).symm)
  | green => exact hStored .green
  | blue => exact (hStored .red).trans (congrArg Int.cast (hEqual i hCovered))

/-- Red and blue are stored in each other's place, so the colours survive exactly where the source
shows as much red as blue. -/
theorem channelsSurvive_iff {blobs : List (String × List (List UInt8))} {mesh : Mesh K n}
    (hRun : colorMesh job (decodeKeyframes blobs) = some mesh) :
    ChannelsSurvive job blobs mesh ↔ ∀ i, Covered job blobs i → average job blobs i .red = average job blobs i .blue := by
  constructor
  · intro hSurvive i hCovered
    have hRed := hSurvive i hCovered .red
    have hBlue := stored_eq hRun hCovered .blue
    exact Int.cast_injective (hRed.symm.trans hBlue)
  · exact channelsSurvive_of_equal hRun

theorem channelsSurvive_of_grey {blobs : List (String × List (List UInt8))} {mesh : Mesh K n}
    (hRun : colorMesh job (decodeKeyframes blobs) = some mesh)
    (hGrey : ∀ view ∈ views job blobs, view.msg.encoding = "mono8") : ChannelsSurvive job blobs mesh := by
  refine channelsSurvive_of_equal hRun fun i _ => ?_
  have hSamples : samples job i .red (views job blobs) = samples job i .blue (views job blobs) := by
    refine List.filterMap_congr fun view hView => ?_
    have hComponent : view.msg.component .red = view.msg.component .blue := by
      funext r c
      simp only [ImageMsg.component, ImageMsg.offset, hGrey view hView, if_true]
    simp only [ImageMsg.sample, hComponent]
  rw [average, hSamples, average]

/-- Seen only at pixels of one colour, a vertex is stored with that colour in OpenCV's order. -/
theorem stored_uniform {blobs : List (String × List (List UInt8))} {mesh : Mesh K n}
    (hRun : colorMesh job (decodeKeyframes blobs) = some mesh) {i : Fin n} (hCovered : Covered job blobs i)
    {color : Channel → ℕ}
    (hColor : ∀ view ∈ views job blobs, (view.sees job i).isSome →
      ∀ channel r c, view.msg.component channel r c = color channel) (channel : Channel) :
    mesh.byte i channel.bgr = (color channel : K) := by
  have hMean : mean (samples job i channel (views job blobs)) = (color channel : K) := by
    refine mean_eq (fun s hs => (mem_samples hs).1) (samples_ne_nil hCovered channel) fun s hs => ?_
    obtain ⟨view, hView, hSample⟩ := List.mem_filterMap.mp hs
    obtain ⟨uv, hSees, rfl⟩ := Option.map_eq_some_iff.mp hSample
    have hInterpolate : interpolate (fun r c => (view.msg.component channel r c : K)) uv.1 uv.2 = (color channel : K) :=
      interpolate_const (fun r c => by rw [hColor view hView (by rw [hSees]; rfl)]) uv.1 uv.2
    simp [ImageMsg.sample, hInterpolate]
  rw [stored_eq hRun hCovered, average, hMean]
  simp

end Accumulation

section RedScene

def redMessage : List UInt8 :=
  [0, 1, 0, 0] ++ [1, 0, 0, 0] ++ [0, 0, 0, 0] ++ [4, 0, 0, 0] ++ [99, 97, 109, 0] ++ [2, 0, 0, 0] ++ [2, 0, 0, 0] ++
    [5, 0, 0, 0] ++ [114, 103, 98, 56, 0] ++ [0] ++ [0, 0] ++ [6, 0, 0, 0] ++ [12, 0, 0, 0] ++
    [255, 0, 0, 255, 0, 0, 255, 0, 0, 255, 0, 0]

def redJob : Job ℚ 1 where
  vertices := fun _ => ⟨0, 0, 1⟩
  triangles := []
  baseCamopt := fun _ => some 1
  intrinsics := fun _ => ⟨1, 1, 0, 0, [], "none"⟩
  interpPose := fun _ => some 1
  timeOffsetNs := 0
  minDepth := 1 / 5
  maxDepth := 15
  projectPoints := fun cam p => (p.x / p.z * cam.fx + cam.cx, p.y / p.z * cam.fy + cam.cy)

def redBlobs : List (String × List (List UInt8)) := [("/cam_north/image_raw", [redMessage])]

theorem redJob_runs : (colorMesh redJob (decodeKeyframes redBlobs)).isSome := by decide +kernel

theorem redJob_covered : Covered redJob redBlobs 0 := by decide +kernel

theorem redJob_average : average redJob redBlobs 0 .red = 255 ∧ average redJob redBlobs 0 .blue = 0 := by decide +kernel

theorem channelsSurvive_iff_red_scene : ∃ mesh, colorMesh redJob (decodeKeyframes redBlobs) = some mesh ∧
    (ChannelsSurvive redJob redBlobs mesh ↔
      ∀ i, Covered redJob redBlobs i → average redJob redBlobs i .red = average redJob redBlobs i .blue) := by
  obtain ⟨mesh, hRun⟩ := Option.isSome_iff_exists.mp redJob_runs
  exact ⟨mesh, hRun, channelsSurvive_iff hRun⟩

/-- A vertex in front of a red image is written blue. -/
theorem channelsSurvive_red_scene :
    ¬∀ (n : ℕ) (job : Job ℚ n) (blobs : List (String × List (List UInt8))) (mesh : Mesh ℚ n),
      colorMesh job (decodeKeyframes blobs) = some mesh → ChannelsSurvive job blobs mesh := by
  intro hAlways
  obtain ⟨mesh, hRun⟩ := Option.isSome_iff_exists.mp redJob_runs
  have hRed : mesh.byte 0 0 = _ := hAlways 1 redJob redBlobs mesh hRun 0 redJob_covered .red
  have hBlue : mesh.byte 0 0 = _ := stored_eq hRun redJob_covered .blue
  rw [hRed, redJob_average.1, redJob_average.2] at hBlue
  exact absurd hBlue (by norm_num)

end RedScene

end RoveMapping.ColorMesh
