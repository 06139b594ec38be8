import Dpaste.EffectTraces
import Dpaste.FixedWidthNumerals
import Dpaste.PrefixDecoding
import Dpaste.MessagePackFormat
import Dpaste.MessagePackRoundTrip
import Dpaste.Base64Text
import Dpaste.TextFields
import Dpaste.AppendOnlyStores
import Dpaste.LabelledRuns
import Dpaste.InteractivePrograms
import Dpaste.ConcurrentParties
import Dpaste.LibraryInterfaces
import Dpaste.CipherParameters
import Dpaste.CommandLine
import Dpaste.ConfigurationFile
import Dpaste.HttpService
import Dpaste.GpgCipher
import Dpaste.CipherSelection
import Dpaste.LocationCodes
import Dpaste.PacketEncoding
import Dpaste.BinOperations
import Dpaste.MainProgram
import Dpaste.PacketPreparation
import Dpaste.PasteAndGet
import Dpaste.SecludedParts
import Dpaste.ClientScripts
import Dpaste.SharedTransports
import Dpaste.TransportSecrecy
import Dpaste.TransportStores
import Dpaste.PlainRoundTrip
import Dpaste.EncryptedRoundTrip
import Dpaste.PinGenerator
import Dpaste.PasteSequences
import Dpaste.ConcurrentClients
import Dpaste.ConcurrentReading
import Dpaste.RequestedProtection
import Dpaste.SignatureCoverage
import Dpaste.UnsetStorage
import Dpaste.BlockingPaste
import Dpaste.NodeStop
import Dpaste.PasteProgress
import Dpaste.PacketRoundTrip
import Dpaste.GetAnswers
import Dpaste.PasteFailures
import Dpaste.StreamPastes
import Dpaste.HttpAnswers
import Dpaste.NetworkTransports
import Dpaste.NetworkPastes
import Dpaste.NetworkCommands
import Dpaste.ConfigurationLines
import Dpaste.ConfigurationStore
import Dpaste.TrimmedText
import Dpaste.UriRoundTrip
import Dpaste.PacketFields
import Dpaste.CommandModes
import Dpaste.CommandScripts
import Dpaste.ConcurrentCommands
import Dpaste.ConfigurationLoads
import Dpaste.ServicePort
