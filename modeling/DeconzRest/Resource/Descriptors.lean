import DeconzRest.Qt.Text

/-!
# The descriptor table

`rItemDescriptors` holds one descriptor for each kind of resource item, in the
order of `initResourceDescriptors`.  A parameter name of a request is resolved
by the suffixes of the table alone, so the table is a list of suffixes here.
Device description files add descriptors at run time, behind those of the
source; results about requests therefore take the table as an argument.
-/

namespace DeconzRest

/-- The suffixes that `initResourceDescriptors` puts into the table. -/
def rItemDescriptors : List String :=
  ["invalid/suffix", "attr/appversion", "attr/class", "attr/configid", "attr/ddf_hash",
    "attr/ddf_policy", "attr/extaddress", "attr/groupaddress", "attr/id", "attr/lastannounced",
    "attr/lastseen", "attr/levelmin", "attr/manufacturername", "attr/mode", "attr/modelid",
    "attr/name", "attr/nwkaddress", "cap/otau/file_version", "cap/otau/image_type",
    "cap/otau/manufacturer_code", "attr/otaversion", "attr/poweronct", "attr/poweronlevel",
    "attr/powerup", "attr/productid", "attr/productname", "attr/swconfigid", "attr/swversion",
    "attr/swversion_bis", "attr/type", "attr/uniqueid", "attr/zonetype", "action/scene",
    "state/action", "state/airquality", "state/airquality_bis", "state/airqualityppb",
    "state/airqualityppb_bis", "state/alarm", "state/alert", "state/all_on", "state/angle",
    "state/any_on", "state/armstate", "state/battery", "state/bri", "state/buttonevent",
    "state/carbonmonoxide", "state/charging", "state/colormode", "state/consumption",
    "state/consumption_2", "state/ct", "state/current", "state/current_P1", "state/current_P2",
    "state/current_P3", "state/dark", "state/daylight", "state/deviceruntime", "state/effect",
    "state/errorcode", "state/eventduration", "state/expectedeventduration",
    "state/expectedrotation", "state/filterruntime", "state/fire", "state/flag",
    "state/floortemperature", "state/gpd_frame_counter", "state/gpd_last_pair", "state/gesture",
    "state/gradient", "state/heating", "state/hue", "state/humidity", "state/humidity_bis",
    "state/lastcheckin", "state/lastset", "state/lastupdated", "state/lift", "state/lightlevel",
    "state/localtime", "state/lockstate", "state/lowbattery", "state/lux",
    "state/measured_value", "state/moisture", "state/mountingmodeactive", "state/music_sync",
    "state/on", "state/open", "state/open_bis", "state/orientation_x", "state/orientation_y",
    "state/orientation_z", "state/pm2_5", "state/panel", "state/power", "state/power_divisor",
    "state/presence", "state/presenceevent", "state/pressure", "state/pressure_bis",
    "state/production", "state/reachable", "state/replacefilter", "state/rotaryevent",
    "state/sat", "state/seconds_remaining", "state/spectral_x", "state/spectral_y",
    "state/spectral_z", "state/speed", "state/status", "state/sunrise", "state/sunset",
    "state/tampered", "state/temperature", "state/temperature_bis", "state/test", "state/tilt",
    "state/tiltangle", "state/utc", "state/valve", "state/vibration", "state/vibrationstrength",
    "state/voltage", "state/water", "state/water_bis", "state/windowopen", "state/x", "state/y",
    "cap/alert/trigger_effect", "cap/bri/min_dim_level", "cap/bri/move_with_onoff",
    "cap/color/capabilities", "cap/color/ct/computes_xy", "cap/color/ct/max", "cap/color/ct/min",
    "cap/color/effects", "cap/color/gamut_type", "cap/color/gradient/max_segments",
    "cap/color/gradient/pixel_count", "cap/color/gradient/pixel_length",
    "cap/color/gradient/styles", "cap/color/xy/blue_x", "cap/color/xy/blue_y",
    "cap/color/xy/green_x", "cap/color/xy/green_y", "cap/color/xy/red_x", "cap/color/xy/red_y",
    "cap/group", "cap/groups/not_supported", "cap/measured_value/max", "cap/measured_value/min",
    "cap/measured_value/quantity", "cap/measured_value/substance", "cap/measured_value/unit",
    "cap/on/off_with_effect", "cap/sleeper", "cap/transition_block", "config/alarmsystemid",
    "config/alert", "config/allowtouchlink", "config/armmode", "config/armed_away_entry_delay",
    "config/armed_away_exit_delay", "config/armed_away_trigger_duration",
    "config/armed_night_entry_delay", "config/armed_night_exit_delay",
    "config/armed_night_trigger_duration", "config/armed_stay_entry_delay",
    "config/armed_stay_exit_delay", "config/armed_stay_trigger_duration", "config/battery",
    "config/battery_bis", "config/bri/couple_ct", "config/bri/execute_if_off", "config/bri/max",
    "config/bri/min", "config/bri/on_level", "config/bri/onoff_transitiontime",
    "config/bri/options", "config/bri/startup", "config/checkin", "config/clickmode",
    "config/colorcapabilities", "config/color/ct/startup", "config/color/execute_if_off",
    "config/color/gradient/pixel_count", "config/color/gradient/reversed",
    "config/color/xy/startup_x", "config/color/xy/startup_y", "config/configured",
    "config/tuya_unlock", "config/controlsequence", "config/coolsetpoint", "config/ctmax",
    "config/ctmin", "config/delay", "config/detectionrange", "config/devicemode",
    "config/devicemode_bis", "config/disarmed_entry_delay", "config/disarmed_exit_delay",
    "config/displayflipped", "config/duration", "config/enrolled", "config/externalsensortemp",
    "config/externalwindowopen", "config/fanmode", "config/filterlifetime",
    "config/gpd_device_id", "config/gpd_key", "config/group", "config/heatsetpoint",
    "config/unoccupiedheatsetpoint", "config/hostflags", "config/humiditymaxthreshold",
    "config/humidityminthreshold", "config/interfacemode", "config/lastchange/amount",
    "config/lastchange/source", "config/lastchange/time", "config/lat", "config/ledindication",
    "config/loadbalancing", "config/localtime", "config/lock", "config/locked", "config/long",
    "config/melody", "config/mode", "config/mountingmode", "config/offset", "config/on",
    "config/on/startup", "config/pending", "config/preset", "config/pulseconfiguration",
    "config/radiatorcovered", "config/reachable", "config/reportgrid", "config/resetpresence",
    "config/restart_device", "config/reversed", "config/schedule", "config/schedule_on",
    "config/selftest", "config/sensitivity", "config/sensitivity_bis", "config/sensitivitymax",
    "config/spatial_learning", "config/speed", "config/setvalve", "config/sunriseoffset",
    "config/sunsetoffset", "config/swingmode", "config/temperaturemaxthreshold",
    "config/temperatureminthreshold", "config/temperature", "config/temperaturemeasurement",
    "config/tholddark", "config/tholdoffset", "config/triggerdistance",
    "config/triggerdistance_bis", "config/ubisys_j1_additionalsteps",
    "config/ubisys_j1_configurationandstatus", "config/ubisys_j1_inactivepowerthreshold",
    "config/ubisys_j1_installedclosedlimitlift", "config/ubisys_j1_installedclosedlimittilt",
    "config/ubisys_j1_installedopenlimitlift", "config/ubisys_j1_installedopenlimittilt",
    "config/ubisys_j1_lifttotilttransitionsteps", "config/ubisys_j1_lifttotilttransitionsteps2",
    "config/ubisys_j1_mode", "config/ubisys_j1_startupsteps", "config/ubisys_j1_totalsteps",
    "config/ubisys_j1_totalsteps2", "config/ubisys_j1_turnaroundguardtime",
    "config/ubisys_j1_windowcoveringtype", "config/url", "config/usertest", "config/volume",
    "config/windowcoveringtype", "config/windowopen_set", "config/windowopendetectionenabled"]

/-- `getResourceItemDescriptor`: the first entry whose suffix ends the text. -/
def getResourceItemDescriptor (table : List String) (str : QString) : Option String :=
  table.find? fun suffix => QString.endsWith str (QString.ofLatin1 suffix)

end DeconzRest
