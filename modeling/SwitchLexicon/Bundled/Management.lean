import SwitchLexicon.Bundled.Platforms

/-!
Commands for the system, its files and its clock.
-/
namespace SwitchLexicon.Bundled

def showSystem : Detail where
  command := "show system"
  description := "Displays basic system information for the switch."
  form := "show system"
  parameters := [⟨"N/A", "N/A"⟩]
  defaults := "N/A"
  platforms := allPlatforms
  guidelines := ["N/A"]
  examples := ["-> show system"]
  history := ["Release 8.1; command introduced."]
  related := [⟨"system name", "Modifies the system name."⟩]
  mibObjects := ["system"]
  outputs :=
    [⟨"Up Time", "The time since the switch was last reset."⟩,
      ⟨"Contact", "The contact person for the switch."⟩]

def systemName : Detail where
  command := "system name"
  description := "Modifies the switch's current system name."
  form := "system name text_string"
  parameters := [⟨"text_string", "A new name for the system, up to 254 characters."⟩]
  defaults := "The switch model name."
  platforms := allPlatforms
  guidelines := ["The system name is also used as the CLI prompt."]
  examples := ["-> system name \"Building 3 Core\""]
  history := ["Release 8.1; command introduced."]
  mibObjects := ["sysName"]

def writeMemory : Detail where
  command := "write memory"
  description := "Copies the running configuration to the working directory."
  form := "write memory [flash-synchro]"
  parameters := [⟨"flash-synchro", "Also synchronizes the certified directory."⟩]
  defaults := "N/A"
  platforms := allPlatforms
  guidelines := ["This command overwrites vcsetup.cfg and vcboot.cfg in the running directory."]
  examples := ["-> write memory", "-> write memory flash-synchro"]
  history := ["Release 8.1; command introduced."]
  related := [⟨"copy running certified", "Copies the running directory to certified."⟩]
  mibObjects := ["configWriteMemory"]

def copyRunningCertified : Detail where
  command := "copy running certified"
  description := "Copies the running directory contents to the certified directory."
  form := "copy running certified [flash-synchro]"
  parameters := [⟨"N/A", "N/A"⟩]
  defaults := "N/A"
  platforms := allPlatforms
  guidelines := ["Only allowed when running from the working directory."]
  examples := ["-> copy running certified"]
  history := ["Release 8.1; command introduced."]
  mibObjects := ["chasControlVersionMngt"]

def reloadFrom : Detail where
  command := "reload from"
  description := "Reboots the switch from a specific directory."
  form := "reload from image_dir \x7brollback-timeout minutes | no rollback-timeout\x7d"
  parameters :=
    [⟨"image_dir", "The directory to boot from (working, certified or a user directory)."⟩]
  defaults := "N/A"
  platforms := allPlatforms
  guidelines := ["Unsaved configuration changes are lost."]
  examples := ["-> reload from working no rollback-timeout"]
  history := ["Release 8.1; command introduced."]
  mibObjects := ["chasControlReloadStatus"]

def showRunningDirectory : Detail where
  command := "show running-directory"
  description :=
    "Displays the directory from which the switch was booted and its synchronization status."
  form := "show running-directory"
  parameters := [⟨"N/A", "N/A"⟩]
  defaults := "N/A"
  platforms := allPlatforms
  guidelines := ["N/A"]
  examples := ["-> show running-directory"]
  history := ["Release 8.1; command introduced."]
  mibObjects := ["chasControlRunningVersion"]

def showConfigurationSnapshot : Detail where
  command := "show configuration snapshot"
  description := "Displays the switch's current running configuration for all or selected features."
  form := "show configuration snapshot [feature_list]"
  parameters := [⟨"feature_list", "Features to display, for example vlan, ip, qos."⟩]
  defaults := "All features."
  platforms := allPlatforms
  guidelines := ["Separate multiple features with a space."]
  examples := ["-> show configuration snapshot vlan ip"]
  history := ["Release 8.1; command introduced."]
  mibObjects := ["configSnapshotAllSelect"]

def ntpServer : Detail where
  command := "ntp server"
  description := "Specifies an NTP server from which this switch receives updates."
  form := "ntp server \x7bip_address | domain_name\x7d [key key] [prefer] [version version]"
  parameters :=
    [⟨"ip_address", "The IP address of the NTP server."⟩,
      ⟨"prefer", "Marks this server as preferred."⟩]
  defaults := "version 4"
  platforms := allPlatforms
  guidelines := ["Use the no form of this command to remove the server."]
  examples := ["-> ntp server 198.206.181.139 prefer"]
  history := ["Release 8.1; command introduced."]
  mibObjects := ["alaNtpPeerTable"]

def showNtpStatus : Detail where
  command := "show ntp status"
  description := "Displays information about the current NTP status."
  form := "show ntp status"
  parameters := [⟨"N/A", "N/A"⟩]
  defaults := "N/A"
  platforms := allPlatforms
  guidelines := ["N/A"]
  examples := ["-> show ntp status"]
  history := ["Release 8.1; command introduced."]
  mibObjects := ["alaNtpInfo"]

def showMacLearning : Detail where
  command := "show mac-learning"
  description := "Displays source learning MAC address table information."
  form := "show mac-learning [vlan vlan_id] [port chassis/slot/port] [mac-address mac_address]"
  parameters := [⟨"mac_address", "Enter the MAC address in the xx:xx:xx:xx:xx:xx format."⟩]
  defaults := "N/A"
  platforms := allPlatforms
  guidelines := ["N/A"]
  examples := ["-> show mac-learning vlan 10"]
  history := ["Release 8.1; command introduced."]
  mibObjects := ["slMacAddressGlobalTable"]

def showUser : Detail where
  command := "show user"
  description :=
    "Displays information about all users or a particular user configured in the local user database."
  form := "show user [username]"
  parameters := [⟨"username", "The name of the user."⟩]
  defaults := "N/A"
  platforms := allPlatforms
  guidelines := ["N/A"]
  examples := ["-> show user admin"]
  history := ["Release 8.1; command introduced."]
  mibObjects := ["aaauserTable"]

def managementCommands : List Detail :=
  [showSystem, systemName, writeMemory, copyRunningCertified, reloadFrom, showRunningDirectory,
    showConfigurationSnapshot, ntpServer, showNtpStatus, showMacLearning, showUser]

end SwitchLexicon.Bundled
