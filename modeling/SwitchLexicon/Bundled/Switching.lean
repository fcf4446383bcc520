import SwitchLexicon.Bundled.Platforms

/-!
Commands for spanning trees, link aggregates and neighbours.
-/
namespace SwitchLexicon.Bundled

def showSpantree : Detail where
  command := "show spantree"
  description := "Displays Spanning Tree bridge information."
  form := "show spantree [cist | msti msti_id | vlan vlan_id]"
  parameters := [⟨"msti_id", "An existing MSTI ID number."⟩]
  defaults := "N/A"
  platforms := allPlatforms
  guidelines := ["N/A"]
  examples := ["-> show spantree"]
  history := ["Release 8.1; command introduced."]
  mibObjects := ["vStpInsTable"]

def spantreeMode : Detail where
  command := "spantree mode"
  description := "Selects a flat or per-VLAN Spanning Tree operating mode for the switch."
  form := "spantree mode \x7bflat | per-vlan\x7d"
  parameters :=
    [⟨"flat", "One spanning tree instance per switch."⟩,
      ⟨"per-vlan", "One spanning tree instance per VLAN."⟩]
  defaults := "per-vlan"
  platforms := allPlatforms
  guidelines := ["Changing the mode restarts the Spanning Tree algorithm."]
  examples := ["-> spantree mode flat"]
  history := ["Release 8.1; command introduced."]
  mibObjects := ["vStpBridgeMode"]

def showLinkagg : Detail where
  command := "show linkagg"
  description := "Displays information about static and dynamic (LACP) link aggregation groups."
  form := "show linkagg [agg agg_id]"
  parameters := [⟨"agg_id", "The link aggregate ID number."⟩]
  defaults := "N/A"
  platforms := allPlatforms
  guidelines := ["N/A"]
  examples := ["-> show linkagg"]
  history := ["Release 8.1; command introduced."]
  mibObjects := ["alclnkaggAggTable"]

def linkaggLacpAgg : Detail where
  command := "linkagg lacp agg"
  description :=
    "Creates a dynamic (LACP) aggregate group that combines ports into a single virtual link."
  form := "linkagg lacp agg agg_id size size [name name] [admin-state \x7benable | disable\x7d]"
  parameters :=
    [⟨"agg_id", "The link aggregate ID number."⟩,
      ⟨"size", "The maximum number of links in the group (2, 4, 8, 16)."⟩]
  defaults := "admin-state enable"
  platforms := allPlatforms
  guidelines := ["Use the no form of this command to delete the aggregate."]
  examples := ["-> linkagg lacp agg 2 size 4"]
  history := ["Release 8.1; command introduced."]
  mibObjects := ["alclnkaggAggTable"]

def showLldpRemoteSystem : Detail where
  command := "show lldp remote-system"
  description := "Displays information about remote systems learned through LLDP."
  form := "show lldp [chassis/slot/port] remote-system"
  parameters := [⟨"chassis/slot/port", "The chassis, slot and port number."⟩]
  defaults := "N/A"
  platforms := allPlatforms
  guidelines := ["N/A"]
  examples := ["-> show lldp remote-system"]
  history := ["Release 8.1; command introduced."]
  mibObjects := ["lldpRemTable"]

def switchingCommands : List Detail :=
  [showSpantree, spantreeMode, showLinkagg, linkaggLacpAgg, showLldpRemoteSystem]

end SwitchLexicon.Bundled
