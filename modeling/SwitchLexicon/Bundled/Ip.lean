import SwitchLexicon.Bundled.Platforms

/-!
Commands for addresses, routes and routing protocols.
-/
namespace SwitchLexicon.Bundled

def showIpInterface : Detail where
  command := "show ip interface"
  description := "Displays the status and configuration of IP router interfaces."
  form := "show ip interface [name | emp | vlan vlan_id]"
  parameters :=
    [⟨"name", "The name assigned to the IP interface."⟩,
      ⟨"vlan_id", "The VLAN ID number."⟩]
  defaults := "N/A"
  platforms := allPlatforms
  guidelines := ["Use the optional name parameter to display a specific interface."]
  examples := ["-> show ip interface", "-> show ip interface vlan-10"]
  history := ["Release 8.1; command introduced."]
  related := [⟨"ip interface", "Creates an IP interface."⟩]
  mibObjects := ["alaIpInterfaceTable"]
  outputs :=
    [⟨"Name", "Interface name."⟩,
      ⟨"IP Address", "The IP address assigned to the interface."⟩,
      ⟨"Device", "The device to which the interface is bound."⟩]

def ipInterface : Detail where
  command := "ip interface"
  description := "Configures an IP router interface on the switch."
  form :=
    "ip interface if_name [address ip_address] [mask subnet_mask] [admin-state \x7benable | disable\x7d] [vlan vlan_id]"
  parameters :=
    [⟨"if_name", "Text string up to 32 characters."⟩,
      ⟨"ip_address", "An IP host address to assign to the interface."⟩,
      ⟨"subnet_mask", "A valid IP address mask."⟩]
  defaults := "admin-state enable"
  platforms := allPlatforms
  guidelines := ["Use the no form of this command to remove an IP interface."]
  examples := ["-> ip interface Marketing address 171.11.1.1 mask 255.255.0.0 vlan 955"]
  history := ["Release 8.1; command introduced."]
  mibObjects := ["alaIpInterfaceTable"]

def ipStaticRoute : Detail where
  command := "ip static-route"
  description := "Creates or deletes an IP static route."
  form := "ip static-route ip_address/prefixLen gateway ip_address [metric metric]"
  parameters :=
    [⟨"ip_address", "Destination IP address of the static route."⟩,
      ⟨"metric", "Metric or cost (hop count) for the static route (1-15)."⟩]
  defaults := "metric 1"
  platforms := allPlatforms
  guidelines := ["Use the no form of this command to delete a static route."]
  examples := ["-> ip static-route 0.0.0.0/0 gateway 10.0.0.254"]
  history := ["Release 8.1; command introduced."]
  related := [⟨"show ip routes", "Displays the IP forwarding table."⟩]
  mibObjects := ["alaIprmStaticRouteTable"]

def showIpRoutes : Detail where
  command := "show ip routes"
  description := "Displays the IP Forwarding table."
  form := "show ip routes"
  parameters := [⟨"N/A", "N/A"⟩]
  defaults := "N/A"
  platforms := allPlatforms
  guidelines := ["N/A"]
  examples := ["-> show ip routes"]
  history := ["Release 8.1; command introduced."]
  mibObjects := ["alaIprmRouteTable"]
  outputs :=
    [⟨"Dest Address", "Destination IP address."⟩,
      ⟨"Gateway Addr", "The IP address of the gateway from which the route was learned."⟩,
      ⟨"Protocol", "Protocol by which this route was learned."⟩]

def showIpOspf : Detail where
  command := "show ip ospf"
  description := "Displays the OSPF status and general configuration parameters."
  form := "show ip ospf"
  parameters := [⟨"N/A", "N/A"⟩]
  defaults := "N/A"
  platforms := allPlatforms
  guidelines := ["N/A"]
  examples := ["-> show ip ospf"]
  history := ["Release 8.1; command introduced."]
  mibObjects := ["ospfGeneralGroup"]
  outputs :=
    [⟨"Router Id", "The unique identification for the router."⟩,
      ⟨"OSPF Version Number", "The version of OSPF running on the router."⟩]

def showIpOspfNeighbor : Detail where
  command := "show ip ospf neighbor"
  description := "Displays information on OSPF non-virtual neighbor routers."
  form := "show ip ospf neighbor [ip_address]"
  parameters := [⟨"ip_address", "The IP address of the neighbor router."⟩]
  defaults := "N/A"
  platforms := allPlatforms
  guidelines := ["N/A"]
  examples := ["-> show ip ospf neighbor"]
  history := ["Release 8.1; command introduced."]
  mibObjects := ["ospfNbrTable"]

def ipOspfArea : Detail where
  command := "ip ospf area"
  description := "Creates or deletes an OSPF area, assigning default metrics, cost and type."
  form := "ip ospf area area_id [type \x7bnormal | stub | nssa\x7d]"
  parameters := [⟨"area_id", "A unique 32-bit value in IP address format."⟩]
  defaults := "type normal"
  platforms := allPlatforms
  guidelines := ["Use the no form of this command to delete an OSPF area."]
  examples := ["-> ip ospf area 0.0.0.1 type stub"]
  history := ["Release 8.1; command introduced."]
  mibObjects := ["ospfAreaTable"]

def showIpIsisStatus : Detail where
  command := "show ip isis status"
  description := "Displays the IS-IS status and global configuration parameters."
  form := "show ip isis status"
  parameters := [⟨"N/A", "N/A"⟩]
  defaults := "N/A"
  platforms := [("OmniSwitch 6900, 9900", "Yes")]
  guidelines := ["N/A"]
  examples := ["-> show ip isis status"]
  history := ["Release 8.1; command introduced."]
  mibObjects := ["vRtrIsisTable"]
  outputs :=
    [⟨"System Id", "The system ID of the router."⟩,
      ⟨"Admin State", "The administrative state of IS-IS."⟩]

def showIpBgpSummary : Detail where
  command := "show ip bgp summary"
  description := "Displays BGP route and peer statistics."
  form := "show ip bgp summary"
  parameters := [⟨"N/A", "N/A"⟩]
  defaults := "N/A"
  platforms := [("OmniSwitch 6900, 9900", "Yes")]
  guidelines := ["N/A"]
  examples := ["-> show ip bgp summary"]
  history := ["Release 8.1; command introduced."]
  mibObjects := ["alaBgpGlobal"]

def ipHelperAddress : Detail where
  command := "ip helper address"
  description := "Adds or deletes a DHCP server IP address for DHCP relay."
  form := "ip helper address ip_address [vlan vlan_id]"
  parameters := [⟨"ip_address", "DHCP server IP address."⟩]
  defaults := "N/A"
  platforms := allPlatforms
  guidelines :=
    ["Use the no form of this command to delete an IP address from the DHCP relay list."]
  examples := ["-> ip helper address 75.0.0.10"]
  history := ["Release 8.1; command introduced."]
  mibObjects := ["iphelperServerTable"]

def showArp : Detail where
  command := "show arp"
  description := "Displays the ARP table."
  form := "show arp [ip_address | hardware_address]"
  parameters :=
    [⟨"ip_address", "The IP address of the entry to display."⟩,
      ⟨"hardware_address", "The MAC address of the entry to display."⟩]
  defaults := "N/A"
  platforms := allPlatforms
  guidelines := ["N/A"]
  examples := ["-> show arp", "-> show arp 00:d0:95:6b:5c:4e"]
  history := ["Release 8.1; command introduced."]
  mibObjects := ["ipNetToMediaTable"]

def ipCommands : List Detail :=
  [showIpInterface, ipInterface, ipStaticRoute, showIpRoutes, showIpOspf, showIpOspfNeighbor,
    ipOspfArea, showIpIsisStatus, showIpBgpSummary, ipHelperAddress, showArp]

end SwitchLexicon.Bundled
