import SwitchLexicon.Bundled.Platforms

/-!
Commands for access, quality of service, logs and tests of reachability.
-/
namespace SwitchLexicon.Bundled

def aaaAuthentication : Detail where
  command := "aaa authentication"
  description := "Configures the authentication server(s) for switch management access."
  form :=
    "aaa authentication \x7bconsole | telnet | ftp | http | snmp | ssh | default\x7d server1 [server2...]"
  parameters := [⟨"server1", "The name of the first authentication server."⟩]
  defaults := "console local"
  platforms := allPlatforms
  guidelines := ["The local server is always the last server tried."]
  examples := ["-> aaa authentication ssh rad1 local"]
  history := ["Release 8.1; command introduced."]
  mibObjects := ["aaaAuthSATable"]

def qosApply : Detail where
  command := "qos apply"
  description := "Applies all pending policy settings to the switch."
  form := "qos apply"
  parameters := [⟨"N/A", "N/A"⟩]
  defaults := "N/A"
  platforms := allPlatforms
  guidelines := ["Policy changes take effect only after qos apply."]
  examples := ["-> qos apply"]
  history := ["Release 8.1; command introduced."]
  mibObjects := ["alaQoSConfigApply"]

def showQosConfig : Detail where
  command := "show qos config"
  description := "Displays global information about the QoS configuration."
  form := "show qos config"
  parameters := [⟨"N/A", "N/A"⟩]
  defaults := "N/A"
  platforms := allPlatforms
  guidelines := ["N/A"]
  examples := ["-> show qos config"]
  history := ["Release 8.1; command introduced."]
  mibObjects := ["alaQoSConfigTable"]

def showCommandLog : Detail where
  command := "show command-log"
  description := "Displays the contents of the command log file."
  form := "show command-log"
  parameters := [⟨"N/A", "N/A"⟩]
  defaults := "N/A"
  platforms := allPlatforms
  guidelines := ["Command logging must be enabled with command-log enable."]
  examples := ["-> show command-log"]
  history := ["Release 8.1; command introduced."]
  mibObjects := ["alaCmdLogHistoryTable"]

def swlogConsoleLevel : Detail where
  command := "swlog console level"
  description := "Sets the severity level for messages sent to the console."
  form := "swlog console level severity_level"
  parameters :=
    [⟨"severity_level", "The severity level (off, alarm, error, alert, warning, info, debug1-3)."⟩]
  defaults := "level info"
  platforms := allPlatforms
  guidelines := ["N/A"]
  examples := ["-> swlog console level warning"]
  history := ["Release 8.1; command introduced."]
  mibObjects := ["systemSwitchLoggingConsoleLevel"]

def ping : Detail where
  command := "ping"
  description := "Tests whether an IP destination can be reached from the local switch."
  form := "ping \x7bip_address | hostname\x7d [count count] [size data_size] [timeout seconds]"
  parameters := [⟨"count", "The number of frames to be transmitted."⟩]
  defaults := "count 6"
  platforms := allPlatforms
  guidelines := ["Press Ctrl+C to stop the ping."]
  examples := ["-> ping 10.255.11.242 count 2"]
  history := ["Release 8.1; command introduced."]
  related := [⟨"traceroute", "Finds the path to an IP destination."⟩]

def traceroute : Detail where
  command := "traceroute"
  description :=
    "Finds the path taken by an IP packet from the local switch to a specified destination."
  form := "traceroute \x7bip_address | hostname\x7d [max-hop max_hop_count]"
  parameters := [⟨"max_hop_count", "The maximum number of hops to trace."⟩]
  defaults := "max-hop 30"
  platforms := allPlatforms
  guidelines := ["N/A"]
  examples := ["-> traceroute 128.251.17.224 max-hop 10"]
  history := ["Release 8.1; command introduced."]

def securityCommands : List Detail :=
  [aaaAuthentication, qosApply, showQosConfig, showCommandLog, swlogConsoleLevel, ping, traceroute]

end SwitchLexicon.Bundled
