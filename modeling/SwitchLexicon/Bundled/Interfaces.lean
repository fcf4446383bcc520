import SwitchLexicon.Bundled.Platforms

/-!
Commands for the ports of the switch.
-/
namespace SwitchLexicon.Bundled

def showInterfaces : Detail where
  command := "show interfaces"
  description :=
    "Displays general interface information such as hardware, MAC address, input and output errors."
  form := "show interfaces [chassis/slot[/port[-port2]]]"
  parameters := [⟨"chassis/slot/port", "The chassis, slot and port number."⟩]
  defaults := "N/A"
  platforms := allPlatforms
  guidelines := ["N/A"]
  examples := ["-> show interfaces 1/1/1"]
  history := ["Release 8.1; command introduced."]
  related := [⟨"show interfaces status", "Displays interface line settings."⟩]
  mibObjects := ["ifTable", "ifXTable"]
  outputs :=
    [⟨"Operational Status", "The operational state of the interface (up, down)."⟩,
      ⟨"MAC address", "The MAC address assigned to the interface."⟩]

def showInterfacesStatus : Detail where
  command := "show interfaces status"
  description := "Displays interface line settings such as speed, duplex mode and auto-negotiation."
  form := "show interfaces [chassis/slot[/port[-port2]]] status"
  parameters := [⟨"chassis/slot/port", "The chassis, slot and port number."⟩]
  defaults := "N/A"
  platforms := allPlatforms
  guidelines := ["N/A"]
  examples := ["-> show interfaces status", "-> show interfaces 1/1/2 status"]
  history := ["Release 8.1; command introduced."]
  mibObjects := ["esmPortCfgTable"]
  outputs :=
    [⟨"Admin Status", "The interface administrative status (enable, disable)."⟩,
      ⟨"Auto Nego", "The auto-negotiation status (enable, disable)."⟩]

def interfacesAdminState : Detail where
  command := "interfaces admin-state"
  description := "Administratively enables or disables interfaces."
  form := "interfaces \x7bchassis/slot[/port[-port2]]\x7d admin-state \x7benable | disable\x7d"
  parameters := [⟨"enable", "Enables the interface."⟩, ⟨"disable", "Disables the interface."⟩]
  defaults := "enable"
  platforms := allPlatforms
  guidelines := ["Disabling an interface stops all traffic on that port."]
  examples := ["-> interfaces 1/1/1 admin-state disable"]
  history := ["Release 8.1; command introduced."]
  mibObjects := ["ifAdminStatus"]

def interfacesAlias : Detail where
  command := "interfaces alias"
  description := "Configures a description (alias) for a single port."
  form := "interfaces chassis/slot/port alias description"
  parameters := [⟨"description", "An alphanumeric string up to 40 characters long."⟩]
  defaults := "No description configured."
  platforms := allPlatforms
  guidelines := ["Enclose a description containing spaces in quotation marks."]
  examples := ["-> interfaces 1/1/3 alias \"uplink to core\""]
  history := ["Release 8.1; command introduced."]
  mibObjects := ["ifAlias"]

def interfacesCommands : List Detail :=
  [showInterfaces, showInterfacesStatus, interfacesAdminState, interfacesAlias]

end SwitchLexicon.Bundled
