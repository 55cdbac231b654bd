import Shawk.Text
import Shawk.Utf8
import Shawk.Numerals
import Shawk.HexLiterals
import Shawk.IP
import Shawk.Fmt
import Shawk.Procfs
import Shawk.ProcfsLines
import Shawk.Netlink
import Shawk.ProcfsRoundTrip
import Shawk.UserEnts
import Shawk.ProcFiles
import Shawk.ProcScan
import Shawk.HostFlow
import Shawk.Connections
import Shawk.Fallback
import Shawk.Aggregation
import Shawk.Attribution
import Shawk.ListeningPorts
import Shawk.Tcp6
import Shawk.ProcfsFlows
import Shawk.ListingOrder
import Shawk.ScanReads
