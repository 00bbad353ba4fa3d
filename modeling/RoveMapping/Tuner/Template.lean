import RoveMapping.Tuner.LaunchTemplate

/-! # Rendering a template

`string.Template` and the placeholder regex, character by character. `parses` stands for
`ast.parse`: whether it accepts a text.
-/
namespace RoveMapping.Tuner.Template
set_option autoImplicit false

/-- The value of an override: anything but a boolean goes by its `str()`. -/
inductive Override where
  | bool (b : Bool)
  | other (str : String)
  deriving DecidableEq, Repr

def coerce : Override → String
  | .bool true => "true"
  | .bool false => "false"
  | .other str => str

inductive Exc where
  /-- `KeyError`: overrides that no placeholder of the template asks for. -/
  | unknownOverrides (unknown placeholders : List String)
  /-- `KeyError`: a placeholder with neither a default nor an override. -/
  | noDefault (key : String)
  /-- `KeyError` of `Template.substitute`. -/
  | keyError (key : String)
  /-- `ValueError` of `Template.substitute`: a dollar sign that starts no placeholder. -/
  | invalidPlaceholder
  /-- `RuntimeError`: the rendered text does not parse. -/
  | notPython
  deriving DecidableEq, Repr

def defaults : List (String × String) := [
  ("icp_point_to_plane", "true"), ("icp_iterations", "10"), ("icp_voxel_size", "0.01"),
  ("icp_epsilon", "0.0001"), ("icp_point_to_plane_k", "20"), ("icp_point_to_plane_radius", "0"),
  ("icp_max_translation", "0.5"), ("icp_max_correspondence_distance", "0.1"), ("icp_strategy", "1"),
  ("icp_outlier_ratio", "0.65"), ("icp_force_3dof", "false"), ("icp_force_4dof", "false"),
  ("odom_scan_keyframe_thr", "0.4"), ("odomf2m_scan_subtract_radius", "0.01"),
  ("odomf2m_scan_max_size", "25000"), ("odomf2m_bundle_adjustment", "false"),
  ("icp_odom_correspondence_ratio", "0.03"), ("icp_point_to_plane_min_complexity", "0.0"),
  ("rgbd_proximity_max_graph_depth", "0"), ("rgbd_proximity_path_max_neighbors", "1"),
  ("rgbd_angular_update", "0.1"), ("rgbd_linear_update", "0.1"), ("rgbd_create_occupancy_grid", "true"),
  ("mem_not_linked_nodes_kept", "false"), ("mem_stm_size", "30"), ("reg_strategy", "1"),
  ("icp_map_correspondence_ratio", "0.1"), ("grid_range_max", "20.0"), ("grid_max_ground_height", "0.25"),
  ("grid_max_obstacle_height", "1.8"), ("grid_min_cluster_size", "30"),
  ("grid_normals_segmentation", "true"), ("grid_footprint_height", "0.0"), ("grid_cell_size", "0.05")]

def identStart (c : Char) : Bool := c.isAlpha || c == '_'
def identChar (c : Char) : Bool := c.isAlphanum || c == '_'

def identifier : List Char → Option (List Char × List Char)
  | [] => none
  | c :: rest =>
    if identStart c then some (c :: rest.takeWhile identChar, rest.dropWhile identChar) else none

def braced : List Char → Option (List Char × List Char)
  | '\x7b' :: rest =>
    match identifier rest with
    | some (name, '\x7d' :: after) => some (name, after)
    | _ => none
  | _ => none

theorem identifier_shorter {text name after : List Char} (h : identifier text = some (name, after)) :
    after.length < text.length := by
  cases text with
  | nil => cases h
  | cons c rest =>
    simp only [identifier] at h
    split at h
    · cases h
      exact Nat.lt_succ_of_le (List.dropWhile_suffix _).length_le
    · cases h

theorem braced_shorter {text name after : List Char} (h : braced text = some (name, after)) :
    after.length < text.length := by
  unfold braced at h
  split at h
  · split at h
    · rename_i hIdent
      cases h
      have hShorter := identifier_shorter hIdent
      simp only [List.length_cons] at hShorter ⊢
      omega
    · cases h
  · cases h

def placeholders : List Char → List String
  | [] => []
  | c :: rest =>
    if c = '$' then
      match h : braced rest with
      | some (name, after) =>
        have : after.length < rest.length := braced_shorter h
        String.ofList name :: placeholders after
      | none => placeholders rest
    else placeholders rest
termination_by text => text.length

/-- What follows a dollar sign: another one, or a name with or without braces. -/
def dollar : List Char → Option (Option (List Char) × List Char)
  | '$' :: after => some (none, after)
  | rest => ((identifier rest).orElse fun _ => braced rest).map fun (name, after) => (some name, after)

theorem dollar_shorter {text after : List Char} {name : Option (List Char)} (h : dollar text = some (name, after)) :
    after.length < text.length := by
  unfold dollar at h
  split at h
  · cases h
    exact Nat.lt_succ_self _
  · obtain ⟨⟨found, after'⟩, hFound, hEq⟩ := Option.map_eq_some_iff.mp h
    cases hEq
    cases hIdent : identifier text with
    | none =>
      rw [hIdent] at hFound
      exact braced_shorter hFound
    | some ident =>
      rw [hIdent] at hFound
      cases hFound
      exact identifier_shorter hIdent

def substitute (merged : List (String × String)) : List Char → Except Exc (List Char)
  | [] => .ok []
  | c :: rest =>
    if c = '$' then
      match h : dollar rest with
      | none => .error .invalidPlaceholder
      | some (none, after) =>
        have : after.length < rest.length := dollar_shorter h
        (substitute merged after).map ('$' :: ·)
      | some (some name, after) =>
        have : after.length < rest.length := dollar_shorter h
        match merged.lookup (String.ofList name) with
        | some value => (substitute merged after).map (value.toList ++ ·)
        | none => .error (.keyError (String.ofList name))
    else (substitute merged rest).map (c :: ·)
termination_by text => text.length

def paramValue (overrides : List (String × Override)) (key : String) : Except Exc String :=
  match overrides.lookup key with
  | some value => .ok (coerce value)
  | none =>
    match defaults.lookup key with
    | some value => .ok value
    | none => .error (.noDefault key)

def effectiveParams (overrides : List (String × Override)) (template : List Char) :
    Except Exc (List (String × String)) :=
  let found := (placeholders template).dedup
  let unknown := (overrides.map (·.1)).filter fun key => key ∉ found
  if unknown ≠ [] then .error (.unknownOverrides unknown found)
  else found.mapM fun key => (paramValue overrides key).map fun value => (key, value)

def render (parses : List Char → Bool) (overrides : List (String × Override)) (template : List Char) :
    Except Exc (List Char) := do
  let merged ← effectiveParams overrides template
  let rendered ← substitute merged template
  if parses rendered then return rendered else throw .notPython

end RoveMapping.Tuner.Template
