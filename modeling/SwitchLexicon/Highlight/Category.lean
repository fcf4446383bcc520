/-!
The categories by which a configuration line is coloured, and the words of each keyword category.
-/
namespace SwitchLexicon

inductive Category where
  | plain
  | comment
  | ipAddress
  | macAddress
  | number
  | quotation
  | command
  | parameter
  | critical
  | protocol
  | action
deriving DecidableEq, Repr

namespace Category

def name : Category → String
  | .plain => "none"
  | .comment => "comment"
  | .ipAddress => "ip-address"
  | .macAddress => "mac-address"
  | .number => "number"
  | .quotation => "string"
  | .command => "command"
  | .parameter => "parameter"
  | .critical => "critical"
  | .protocol => "protocol"
  | .action => "action"

def style : Category → String
  | .plain => ""
  | .comment => "dim italic"
  | .ipAddress => "bright_cyan"
  | .macAddress => "magenta"
  | .number => "cyan"
  | .quotation => "yellow"
  | .command => "bold bright_magenta"
  | .parameter => "bright_blue"
  | .critical => "bold red"
  | .protocol => "green"
  | .action => "blue"

def commandWords : List String :=
  ["show", "vlan", "interfaces", "ip", "ipv6", "spantree", "linkagg", "qos", "aaa", "user",
    "system", "write", "copy", "reload", "ntp", "snmp", "lldp", "mac-learning", "policy", "unp",
    "mvrp", "swlog", "session", "command-log", "debug", "configuration", "modify", "cli",
    "router", "vrf", "loopback0"]

def parameterWords : List String :=
  ["port", "slot", "chassis", "members", "tagged", "untagged", "admin-state", "name", "priority",
    "mode", "address", "mask", "gateway", "interface", "level", "timeout", "speed", "duplex",
    "alias", "agg", "static", "dynamic", "status", "statistics", "detail", "community", "host",
    "server", "area", "neighbor", "route", "prefer", "metric", "type", "all"]

def criticalWords : List String :=
  ["no", "disable", "shutdown", "deny", "drop", "delete", "clear", "reset", "remove", "takeover",
    "erase", "default"]

def protocolWords : List String :=
  ["ospf", "ospf3", "bgp", "isis", "rip", "vrrp", "lacp", "stp", "rstp", "mstp", "pim", "igmp",
    "mld", "dhcp", "arp", "tcp", "udp", "icmp", "radius", "tacacs+", "ldap", "ssh", "telnet",
    "http", "https", "ftp", "tftp", "sftp", "802.1x", "erp", "mpls", "ntp-server", "sflow", "ptp"]

def actionWords : List String :=
  ["enable", "apply", "save", "flash-synchro", "running-directory", "certify", "restore", "add",
    "create", "set", "assign", "ping", "traceroute", "exit", "install", "activate", "learn",
    "reboot", "commit", "backup"]

def keywords : List (List String × Category) :=
  [(commandWords, .command), (parameterWords, .parameter), (criticalWords, .critical),
    (protocolWords, .protocol), (actionWords, .action)]

end Category

end SwitchLexicon
