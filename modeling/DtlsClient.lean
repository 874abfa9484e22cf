import DtlsClient.Properties.Connected
import DtlsClient.Properties.EpochKeys
import DtlsClient.Properties.Authenticity
import DtlsClient.Properties.Replay
import DtlsClient.Properties.Retransmission
import DtlsClient.Properties.Malformed
import DtlsClient.Properties.Memory
import DtlsClient.Properties.Window
import DtlsClient.Properties.Records
import DtlsClient.Properties.Packing
import DtlsClient.Properties.Reencoding
import DtlsClient.Properties.Reordering
import DtlsClient.Properties.Closing
import DtlsClient.Properties.FlightSteps
import DtlsClient.Properties.ServerFlight
import DtlsClient.Properties.Negotiation
import DtlsClient.Properties.Finishing
import DtlsClient.Properties.Transcript
import DtlsClient.Properties.Sequence
import DtlsClient.Properties.Delivery
import DtlsClient.Properties.Codec
import DtlsClient.Properties.Grammar
import DtlsClient.Properties.Ciphers
import DtlsClient.Properties.Sending
import DtlsClient.Library.Sorting
import DtlsClient.Properties.Fragments
import DtlsClient.Properties.Framing
import DtlsClient.Properties.Numbers
import DtlsClient.Properties.KeyExpansion
import DtlsClient.Properties.Deciphering
import DtlsClient.Properties.AEAD
import DtlsClient.Properties.FlightSizes
import DtlsClient.Properties.MTU
import DtlsClient.Properties.LongFlights
import DtlsClient.Properties.Transmission
import DtlsClient.Properties.InOrder
import DtlsClient.Properties.Completion
import DtlsClient.Properties.Lifetime
import DtlsClient.Library.Along
import DtlsClient.Properties.Hearing
import DtlsClient.Properties.Session
