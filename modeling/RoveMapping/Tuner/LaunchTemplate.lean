import Mathlib.Data.String.Basic

/-! # The template of the launch file

`lidar3d_tunable.launch.py.tmpl`, line by line. Every placeholder is the whole value of an entry of
one of the parameter dictionaries, between the single quotes of its line; no other string of the
file spans lines or holds a backslash.
-/
namespace RoveMapping.Tuner.Template
set_option autoImplicit false

inductive Line where
  | code (text : String)
  /-- A dictionary entry whose value is the placeholder `key`. -/
  | entry (name key : String)
  deriving DecidableEq, Repr

def setupLines : List Line := [
  .code "# AUTO-GENERATED from lidar3d.launch.py for parameter tuning.",
  .code "# Do not edit the rendered output by hand; edit the template",
  .code "# (lidar3d_tunable.launch.py.tmpl) and the DEFAULTS dict in",
  .code "# rove_rtabmap_tuner/template_renderer.py.",
  .code "#",
  .code "# Tunable hyper-parameters are emitted as string.Template placeholders",
  .code "# (dollar-brace-name). The renderer substitutes concrete values per trial.",
  .code "# Environmental settings (topics, frames, sim time, qos, deskewing toggle,",
  .code "# lidar rate) are kept as launch arguments so the rendered file remains",
  .code "# usable standalone.",
  .code "",
  .code "from launch import LaunchDescription, LaunchContext",
  .code "from launch.actions import DeclareLaunchArgument, OpaqueFunction",
  .code "from launch.substitutions import LaunchConfiguration",
  .code "from launch_ros.actions import Node",
  .code "",
  .code "",
  .code "def launch_setup(context: LaunchContext, *args, **kwargs):",
  .code "",
  .code "    frame_id = LaunchConfiguration('frame_id')",
  .code "",
  .code "    imu_topic = LaunchConfiguration('imu_topic')",
  .code "    imu_used = imu_topic.perform(context) != ''",
  .code "",
  .code "    rgbd_image_topic = LaunchConfiguration('rgbd_image_topic')",
  .code "    rgbd_images_topic = LaunchConfiguration('rgbd_images_topic')",
  .code "    rgbd_image_used = (",
  .code "        rgbd_image_topic.perform(context) != ''",
  .code "        or rgbd_images_topic.perform(context) != ''",
  .code "    )",
  .code "    rgbd_cameras = 0 if rgbd_images_topic.perform(context) != '' else 1",
  .code "",
  .code "    use_sim_time = LaunchConfiguration('use_sim_time')",
  .code "",
  .code "    lidar_topic = LaunchConfiguration('lidar_topic')",
  .code "    lidar_topic_value = lidar_topic.perform(context)",
  .code "    lidar_topic_deskewed = lidar_topic_value + '/deskewed'",
  .code "",
  .code "    localization = LaunchConfiguration('localization').perform(context)",
  .code "    localization = localization in ('true', 'True')",
  .code "",
  .code "    deskewing = LaunchConfiguration('deskewing').perform(context)",
  .code "    deskewing = deskewing in ('true', 'True')",
  .code "",
  .code "    deskewing_slerp = LaunchConfiguration('deskewing_slerp').perform(context)",
  .code "    deskewing_slerp = deskewing_slerp in ('true', 'True')",
  .code "",
  .code "    enable_viz = LaunchConfiguration('enable_viz').perform(context)",
  .code "    enable_viz = enable_viz in ('true', 'True')",
  .code "",
  .code "    fixed_frame_from_imu = False",
  .code "    fixed_frame_id = LaunchConfiguration('fixed_frame_id').perform(context)",
  .code "    if not fixed_frame_id and imu_used:",
  .code "        fixed_frame_from_imu = True",
  .code "        fixed_frame_id = frame_id.perform(context) + '_stabilized'",
  .code "",
  .code "    if not fixed_frame_id or not deskewing:",
  .code "        lidar_topic_deskewed = lidar_topic",
  .code ""]

def sharedLines : List Line := [
  .code "    # =========================================================================",
  .code "    # Shared parameters (used by icp_odometry, rtabmap, and rtabmap_viz)",
  .code "    # =========================================================================",
  .code "    shared_parameters = \x7b",
  .code "        'use_sim_time': use_sim_time,",
  .code "        'frame_id': frame_id,",
  .code "        'qos': LaunchConfiguration('qos'),",
  .code "        'approx_sync': rgbd_image_used,",
  .code "        'wait_for_transform': 0.2,",
  .code "",
  .code "        # ----- ICP shared parameters -----------------------------------------",
  .entry "Icp/PointToPlane" "icp_point_to_plane",
  .entry "Icp/Iterations" "icp_iterations",
  .entry "Icp/VoxelSize" "icp_voxel_size",
  .entry "Icp/Epsilon" "icp_epsilon",
  .entry "Icp/PointToPlaneK" "icp_point_to_plane_k",
  .entry "Icp/PointToPlaneRadius" "icp_point_to_plane_radius",
  .entry "Icp/MaxTranslation" "icp_max_translation",
  .entry "Icp/MaxCorrespondenceDistance" "icp_max_correspondence_distance",
  .entry "Icp/Strategy" "icp_strategy",
  .code "        # Force3DoF: restrict ICP to in-plane motion (x, y, yaw). Useful for",
  .code "        # ground robots — eliminates Z/roll/pitch drift that doesn't reflect",
  .code "        # real motion and can pollute the trajectory estimate. Default false.",
  .entry "Icp/Force3DoF" "icp_force_3dof",
  .code "        # Force4DoF: restrict to (x, y, z, yaw) — keep height but lock roll",
  .code "        # and pitch. Useful for robots driving over moderate inclines.",
  .entry "Icp/Force4DoF" "icp_force_4dof",
  .entry "Icp/OutlierRatio" "icp_outlier_ratio",
  .code "    \x7d",
  .code ""]

def odometryLines : List Line := [
  .code "    # =========================================================================",
  .code "    # ICP odometry parameters",
  .code "    # =========================================================================",
  .code "    icp_odometry_parameters = \x7b",
  .code "        'expected_update_rate': LaunchConfiguration('expected_update_rate'),",
  .code "        'deskewing': not fixed_frame_id and deskewing,",
  .code "        'odom_frame_id': 'icp_odom',",
  .code "        'guess_frame_id': fixed_frame_id,",
  .code "        'deskewing_slerp': deskewing_slerp,",
  .entry "Odom/ScanKeyFrameThr" "odom_scan_keyframe_thr",
  .entry "OdomF2M/ScanSubtractRadius" "odomf2m_scan_subtract_radius",
  .entry "OdomF2M/ScanMaxSize" "odomf2m_scan_max_size",
  .entry "OdomF2M/BundleAdjustment" "odomf2m_bundle_adjustment",
  .entry "Icp/CorrespondenceRatio" "icp_odom_correspondence_ratio",
  .entry "Icp/PointToPlaneMinComplexity" "icp_point_to_plane_min_complexity",
  .code "    \x7d",
  .code "",
  .code "    if imu_used:",
  .code "        icp_odometry_parameters['wait_imu_to_init'] = True",
  .code ""]

def slamLines : List Line := [
  .code "    # =========================================================================",
  .code "    # RTAB-Map SLAM parameters",
  .code "    # =========================================================================",
  .code "    rtabmap_parameters = \x7b",
  .code "        'subscribe_depth': False,",
  .code "        'subscribe_rgb': False,",
  .code "        'subscribe_odom_info': True,",
  .code "        'subscribe_scan_cloud': True,",
  .code "        'map_frame_id': 'map',",
  .code "        'odom_sensor_sync': True,",
  .code "        'database_path': LaunchConfiguration('database_path'),",
  .entry "RGBD/ProximityMaxGraphDepth" "rgbd_proximity_max_graph_depth",
  .entry "RGBD/ProximityPathMaxNeighbors" "rgbd_proximity_path_max_neighbors",
  .entry "RGBD/AngularUpdate" "rgbd_angular_update",
  .entry "RGBD/LinearUpdate" "rgbd_linear_update",
  .entry "RGBD/CreateOccupancyGrid" "rgbd_create_occupancy_grid",
  .entry "Mem/NotLinkedNodesKept" "mem_not_linked_nodes_kept",
  .entry "Mem/STMSize" "mem_stm_size",
  .entry "Reg/Strategy" "reg_strategy",
  .entry "Icp/CorrespondenceRatio" "icp_map_correspondence_ratio",
  .entry "Grid/RangeMax" "grid_range_max",
  .entry "Grid/MaxGroundHeight" "grid_max_ground_height",
  .entry "Grid/MaxObstacleHeight" "grid_max_obstacle_height",
  .entry "Grid/MinClusterSize" "grid_min_cluster_size",
  .entry "Grid/NormalsSegmentation" "grid_normals_segmentation",
  .entry "Grid/FootprintHeight" "grid_footprint_height",
  .entry "Grid/CellSize" "grid_cell_size",
  .code "    \x7d",
  .code ""]

def remappingLines : List Line := [
  .code "    arguments = []",
  .code "    if localization:",
  .code "        rtabmap_parameters['Mem/IncrementalMemory'] = 'False'",
  .code "        rtabmap_parameters['Mem/InitWMWithAllNodes'] = 'True'",
  .code "    else:",
  .code "        arguments.append('-d')  # Delete previous database at database_path",
  .code "",
  .code "    # =========================================================================",
  .code "    # Topic remappings",
  .code "    # =========================================================================",
  .code "    remappings = [('odom', 'icp_odom')]",
  .code "    if imu_used:",
  .code "        remappings.append(('imu', LaunchConfiguration('imu_topic')))",
  .code "    else:",
  .code "        remappings.append(('imu', 'imu_not_used'))",
  .code "    if rgbd_image_used:",
  .code "        if rgbd_cameras == 1:",
  .code "            remappings.append(('rgbd_image', LaunchConfiguration('rgbd_image_topic')))",
  .code "        else:",
  .code "            remappings.append(('rgbd_images', LaunchConfiguration('rgbd_images_topic')))",
  .code ""]

def nodeLines : List Line := [
  .code "    # =========================================================================",
  .code "    # Node definitions",
  .code "    # =========================================================================",
  .code "    nodes = [",
  .code "        Node(",
  .code "            package='rtabmap_odom',",
  .code "            executable='icp_odometry',",
  .code "            output='screen',",
  .code "            parameters=[shared_parameters, icp_odometry_parameters],",
  .code "            remappings=remappings + [('scan_cloud', lidar_topic_deskewed)],",
  .code "        ),",
  .code "        Node(",
  .code "            package='rtabmap_slam',",
  .code "            executable='rtabmap',",
  .code "            output='screen',",
  .code "            parameters=[",
  .code "                shared_parameters,",
  .code "                rtabmap_parameters,",
  .code "                \x7b'subscribe_rgbd': rgbd_image_used, 'rgbd_cameras': rgbd_cameras\x7d,",
  .code "            ],",
  .code "            remappings=remappings + [('scan_cloud', lidar_topic_deskewed)],",
  .code "            arguments=arguments,",
  .code "        ),",
  .code "    ]",
  .code "",
  .code "    if enable_viz:",
  .code "        nodes.append(",
  .code "            Node(",
  .code "                package='rtabmap_viz',",
  .code "                executable='rtabmap_viz',",
  .code "                output='screen',",
  .code "                parameters=[",
  .code "                    shared_parameters,",
  .code "                    rtabmap_parameters,",
  .code "                    \x7b'odometry_node_name': 'icp_odometry'\x7d,",
  .code "                ],",
  .code "                remappings=remappings + [('scan_cloud', 'odom_filtered_input_scan')],",
  .code "            )",
  .code "        )",
  .code "",
  .code "    if fixed_frame_from_imu:",
  .code "        nodes.append(",
  .code "            Node(",
  .code "                package='rtabmap_util',",
  .code "                executable='imu_to_tf',",
  .code "                output='screen',",
  .code "                parameters=[\x7b",
  .code "                    'use_sim_time': use_sim_time,",
  .code "                    'fixed_frame_id': fixed_frame_id,",
  .code "                    'base_frame_id': frame_id,",
  .code "                    'wait_for_transform_duration': 0.001,",
  .code "                \x7d],",
  .code "                remappings=[('imu/data', imu_topic)],",
  .code "            )",
  .code "        )",
  .code "",
  .code "    if fixed_frame_id and deskewing:",
  .code "        nodes.append(",
  .code "            Node(",
  .code "                package='rtabmap_util',",
  .code "                executable='lidar_deskewing',",
  .code "                output='screen',",
  .code "                parameters=[\x7b",
  .code "                    'use_sim_time': use_sim_time,",
  .code "                    'fixed_frame_id': fixed_frame_id,",
  .code "                    'wait_for_transform': 0.2,",
  .code "                    'slerp': deskewing_slerp,",
  .code "                \x7d],",
  .code "                remappings=[('input_cloud', lidar_topic)],",
  .code "            )",
  .code "        )",
  .code "",
  .code "    return nodes",
  .code "",
  .code ""]

def declarationLines : List Line := [
  .code "def generate_launch_description():",
  .code "    return LaunchDescription([",
  .code "        DeclareLaunchArgument(",
  .code "            'use_sim_time', default_value='false',",
  .code "            description='Use simulated clock.'),",
  .code "",
  .code "        DeclareLaunchArgument(",
  .code "            'deskewing', default_value='true',",
  .code "            description='Enable lidar deskewing.'),",
  .code "",
  .code "        DeclareLaunchArgument(",
  .code "            'deskewing_slerp', default_value='true',",
  .code "            description='Use fast SLERP interpolation for deskewing.'),",
  .code "",
  .code "        DeclareLaunchArgument(",
  .code "            'frame_id', default_value='livox_frame',",
  .code "            description='TF frame of the Livox Mid-360 sensor.'),",
  .code "",
  .code "        DeclareLaunchArgument(",
  .code "            'fixed_frame_id', default_value='',",
  .code "            description='Fixed frame for lidar deskewing (auto from IMU if empty).'),",
  .code "",
  .code "        DeclareLaunchArgument(",
  .code "            'localization', default_value='false',",
  .code "            description='Run in localization-only mode (no mapping).'),",
  .code "",
  .code "        DeclareLaunchArgument(",
  .code "            'lidar_topic', default_value='/livox/lidar',",
  .code "            description='PointCloud2 topic from livox_ros_driver2.'),",
  .code "",
  .code "        DeclareLaunchArgument(",
  .code "            'imu_topic', default_value='/livox/imu',",
  .code "            description='IMU topic; empty string to disable IMU usage.'),",
  .code "",
  .code "        DeclareLaunchArgument(",
  .code "            'rgbd_image_topic', default_value='',",
  .code "            description='RGBD image topic (ignored if empty).'),",
  .code "",
  .code "        DeclareLaunchArgument(",
  .code "            'rgbd_images_topic', default_value='',",
  .code "            description='RGBD images topic for multi-camera setups.'),",
  .code "",
  .code "        DeclareLaunchArgument(",
  .code "            'expected_update_rate', default_value='12.0',",
  .code "            description='Expected lidar frame rate in Hz.'),",
  .code "",
  .code "        DeclareLaunchArgument(",
  .code "            'qos', default_value='1',",
  .code "            description='ROS 2 QoS: 0=system default, 1=reliable, 2=best effort.'),",
  .code "",
  .code "        DeclareLaunchArgument(",
  .code "            'database_path', default_value='~/.ros/rtabmap.db',",
  .code "            description='Per-trial rtabmap.db location. The tuner overrides this per trial.'),",
  .code "",
  .code "        DeclareLaunchArgument(",
  .code "            'enable_viz', default_value='true',",
  .code "            description='Spawn rtabmap_viz (the GUI). Set false for headless tuning trials.'),",
  .code "",
  .code "        OpaqueFunction(function=launch_setup),",
  .code "    ])"]

def launchTemplate : List Line :=
  setupLines ++ sharedLines ++ odometryLines ++ slamLines ++ remappingLines ++ nodeLines ++ declarationLines

end RoveMapping.Tuner.Template
