import Ferriot.Accounts
import Ferriot.AddressedWrites
import Ferriot.Backoff
import Ferriot.BatchedWrites
import Ferriot.BigEndian
import Ferriot.Bystanders
import Ferriot.CallOutcomes
import Ferriot.Callbacks
import Ferriot.Carried
import Ferriot.Client
import Ferriot.ClientConnections
import Ferriot.ClientWaits
import Ferriot.Coap
import Ferriot.CoapSend
import Ferriot.Completions
import Ferriot.Connect
import Ferriot.Creation
import Ferriot.DeadConnections
import Ferriot.DefinedAnswers
import Ferriot.Delimited
import Ferriot.DeviceErrors
import Ferriot.DeviceObjects
import Ferriot.Discovery
import Ferriot.DownloadThread
import Ferriot.Duplicates
import Ferriot.Episodes
import Ferriot.EventThread
import Ferriot.ExpiryWatch
import Ferriot.Firmware
import Ferriot.FirmwareDownload
import Ferriot.FirmwareRuns
import Ferriot.Framing
import Ferriot.FreeIds
import Ferriot.Histories
import Ferriot.IncomingRequests
import Ferriot.InstanceHistories
import Ferriot.InstanceWrites
import Ferriot.Iterators
import Ferriot.LeftServers
import Ferriot.LifetimeWrites
import Ferriot.Lifetimes
import Ferriot.MaximalRuns
import Ferriot.Object
import Ferriot.OpenConnections
import Ferriot.Overwriting
import Ferriot.PathText
import Ferriot.Paths
import Ferriot.Progress
import Ferriot.ReadAnswers
import Ferriot.Recovery
import Ferriot.Redownloads
import Ferriot.ReentrantCalls
import Ferriot.Reentry
import Ferriot.RefusedRequests
import Ferriot.RegistrationPayload
import Ferriot.Reports
import Ferriot.RequestOptions
import Ferriot.RequestOrder
import Ferriot.Requests
import Ferriot.Runs
import Ferriot.SecretKeys
import Ferriot.ServerLocations
import Ferriot.SessionEvents
import Ferriot.SettledStates
import Ferriot.SingleReply
import Ferriot.Stopping
import Ferriot.StoredValues
import Ferriot.Tables
import Ferriot.Threads
import Ferriot.TimelyPolls
import Ferriot.TlvDecode
import Ferriot.TlvForest
import Ferriot.TlvFormat
import Ferriot.TlvIntegers
import Ferriot.TlvRecords
import Ferriot.TlvRoundTrip
import Ferriot.TlvSize
import Ferriot.TlvValues
import Ferriot.Tokens
import Ferriot.Types
import Ferriot.UriScan
import Ferriot.VerifiedPackages
import Ferriot.WholeReads
import Ferriot.WriteBack
