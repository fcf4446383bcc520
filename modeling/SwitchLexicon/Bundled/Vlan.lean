import SwitchLexicon.Bundled.Platforms

/-!
Commands for virtual networks and their members.
-/
namespace SwitchLexicon.Bundled

def showVlan : Detail where
  command := "show vlan"
  description := "Displays a list of VLANs and their attributes configured on the switch."
  form := "show vlan [vlan_id1[-vlan_id2]]"
  parameters :=
    [⟨"vlan_id1", "VLAN ID number (1-4094)."⟩,
      ⟨"vlan_id2", "The last VLAN ID number in a range of VLANs."⟩]
  defaults := "N/A"
  platforms := allPlatforms
  guidelines :=
    ["Specify a single VLAN ID or a range of VLAN IDs to display information for only those VLANs."]
  examples := ["-> show vlan", "-> show vlan 200"]
  history := ["Release 8.1; command introduced."]
  related := [⟨"vlan", "Creates a VLAN."⟩]
  mibObjects :=
    ["vlanTable",
      "vlanNumber",
      "vlanDescription",
      "vlanAdmStatus"]
  outputs :=
    [⟨"vlan", "The numerical VLAN ID."⟩,
      ⟨"type", "The type of VLAN (std, vcm, mcm, svlan)."⟩,
      ⟨"admin", "VLAN administrative status."⟩]

def showVlanMembers : Detail where
  command := "show vlan members"
  description :=
    "Displays VLAN port assignments for all VLANs, a specific VLAN, or a specific port."
  form := "show vlan [vlan_id] members [port chassis/slot/port | linkagg agg_id]"
  parameters :=
    [⟨"vlan_id", "VLAN ID number (1-4094)."⟩,
      ⟨"chassis/slot/port", "The chassis, slot and port number."⟩]
  defaults := "N/A"
  platforms := allPlatforms
  guidelines := ["N/A"]
  examples := ["-> show vlan members", "-> show vlan 10 members"]
  history := ["Release 8.1; command introduced."]
  related := [⟨"vlan members untagged", "Configures the default VLAN for a port."⟩]
  mibObjects := ["vpaTable"]
  outputs :=
    [⟨"port", "The slot and port number of the VLAN member."⟩,
      ⟨"type", "The type of VLAN port assignment (default, qtagged)."⟩,
      ⟨"status", "The forwarding status of the port (forwarding, inactive, blocking)."⟩]

def vlan : Detail where
  command := "vlan"
  description := "Creates a new VLAN with the specified VLAN ID and an optional description."
  form := "vlan vlan_id1[-vlan_id2] [admin-state \x7benable | disable\x7d] [name description]"
  parameters :=
    [⟨"vlan_id1", "The VLAN ID number (2-4094)."⟩,
      ⟨"description", "Text string up to 32 characters."⟩]
  defaults := "VLAN 1 exists by default."
  platforms := allPlatforms
  guidelines := ["Use the no form of this command to delete a VLAN.", "VLAN 1 cannot be deleted."]
  examples := ["-> vlan 850 name \"Marketing Admin\"", "-> no vlan 1020"]
  history := ["Release 8.1; command introduced."]
  related := [⟨"show vlan", "Displays a list of existing VLANs."⟩]
  mibObjects := ["vlanTable", "vlanDescription"]

def vlanMembersTagged : Detail where
  command := "vlan members tagged"
  description := "Configures a port or link aggregate as an 802.1Q tagged member of a VLAN."
  form := "vlan vlan_id members \x7bport chassis/slot/port | linkagg agg_id\x7d tagged"
  parameters :=
    [⟨"vlan_id", "An existing VLAN ID number."⟩,
      ⟨"agg_id", "The link aggregate ID number."⟩]
  defaults := "N/A"
  platforms := allPlatforms
  guidelines := ["Use the no form of this command to remove the tagged VLAN association."]
  examples := ["-> vlan 100 members port 1/1/5 tagged"]
  history := ["Release 8.1; command introduced."]
  mibObjects := ["vpaTable"]

def vlanMembersUntagged : Detail where
  command := "vlan members untagged"
  description := "Configures a port or link aggregate as the default (untagged) member of a VLAN."
  form := "vlan vlan_id members \x7bport chassis/slot/port | linkagg agg_id\x7d untagged"
  parameters := [⟨"vlan_id", "An existing VLAN ID number."⟩]
  defaults := "All ports are untagged members of VLAN 1."
  platforms := allPlatforms
  guidelines := ["A port can be the untagged member of only one VLAN."]
  examples := ["-> vlan 20 members port 1/1/10 untagged"]
  history := ["Release 8.1; command introduced."]
  mibObjects := ["vpaTable"]

def vlanCommands : List Detail :=
  [showVlan, showVlanMembers, vlan, vlanMembersTagged, vlanMembersUntagged]

end SwitchLexicon.Bundled
