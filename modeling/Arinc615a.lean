import Arinc615a.Files.RoundTrip
import Arinc615a.Files.Truncation
import Arinc615a.Files.Accepted
import Arinc615a.Files.Assignment
import Arinc615a.Files.Strings
import Arinc615a.Host.Requests
import Arinc615a.Host.Finish
import Arinc615a.Host.Supervision
import Arinc615a.Host.RequestTransfers
import Arinc615a.Host.Versions
import Arinc615a.Host.Restart
import Arinc615a.Host.Timeouts
import Arinc615a.Target.Finish
import Arinc615a.Target.FinalCode
import Arinc615a.Target.Protocol
import Arinc615a.Target.Reporting
import Arinc615a.Target.StatusTransfers
import Arinc615a.Exchange.Agreement
import Arinc615a.Exchange.Receiving
import Arinc615a.Exchange.Aborts
import Arinc615a.Exchange.Authenticity
import Arinc615a.Exchange.Counters
import Arinc615a.Exchange.Negotiation
import Arinc615a.Exchange.Delivery
import Arinc615a.Exchange.Commanded
import Arinc615a.Exchange.Refusal
import Arinc615a.Target.Negotiation
import Arinc615a.Target.InProgress
import Arinc615a.Target.Entries
import Arinc615a.Tftp.Options
import Arinc615a.Tftp.ClientRetries
import Arinc615a.Find.Query
import Arinc615a.Find.Server
import Arinc615a.Find.TargetInformation
import Arinc615a.Find.Network
import Arinc615a.Commands.FileService
import Arinc615a.Commands.Transmission
import Arinc615a.Commands.TargetAddress
import Arinc615a.Commands.DownloadLedger
import Arinc615a.Commands.BatchOrder
import Arinc615a.Commands.BatchIsolation
import Arinc615a.Commands.OperatorDefinedDownload
import Arinc615a.Target.Calling
