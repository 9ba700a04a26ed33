import OpenMediaTransport.VideoReader
import OpenMediaTransport.PeerWrites
import OpenMediaTransport.SenderAssembly
import OpenMediaTransport.MetadataAgreement
import OpenMediaTransport.DiscoveryConvergence
import OpenMediaTransport.DiscoveryRegistry
import OpenMediaTransport.AddressHops
import OpenMediaTransport.WireDepth
import OpenMediaTransport.DiscoveryEvents
import OpenMediaTransport.DiscoveryHistory
import OpenMediaTransport.AudioTransport
import OpenMediaTransport.FrameMetadata
import OpenMediaTransport.OrderedMap
import OpenMediaTransport.Settings
import OpenMediaTransport.SettingsRoundTrip
import OpenMediaTransport.PeerControl
import OpenMediaTransport.SenderControl
import OpenMediaTransport.ControlDocuments
import OpenMediaTransport.ReceiverControl
import OpenMediaTransport.ControlAgreement
import OpenMediaTransport.CheckedMemory
import OpenMediaTransport.PlanarDecode
import OpenMediaTransport.PlanarBijection
import OpenMediaTransport.AudioExpansion
import OpenMediaTransport.GroupFlatten
import OpenMediaTransport.PeerReassembly
import OpenMediaTransport.InstanceLabels
import OpenMediaTransport.DiscoveryRegistrations
import OpenMediaTransport.Runs
import OpenMediaTransport.ServerLifecycle
import OpenMediaTransport.SessionSupervisors
import OpenMediaTransport.XmlGrammar
import OpenMediaTransport.XmlReader
import OpenMediaTransport.MetadataGroups
import OpenMediaTransport.MetadataCommands
import OpenMediaTransport.TimestampPacing
import OpenMediaTransport.DecodedVideoQueue
import OpenMediaTransport.EncodedCapture
import OpenMediaTransport.CaptureToggle
import OpenMediaTransport.VideoEncoder
import OpenMediaTransport.ChannelSwizzle
import OpenMediaTransport.PreviewVariant
import OpenMediaTransport.UyvyPreview
import OpenMediaTransport.DiscoveryRefresh
import OpenMediaTransport.ClientSources
import OpenMediaTransport.BitstreamSave
import OpenMediaTransport.BufferPool
import OpenMediaTransport.AddressUrl
import OpenMediaTransport.MetadataBuilders
import OpenMediaTransport.ReceiverPipeline
import OpenMediaTransport.SenderTransport
import OpenMediaTransport.MediaDelivery
import OpenMediaTransport.MediaPath
import OpenMediaTransport.Ranking
import OpenMediaTransport.Endpoints
import OpenMediaTransport.TextureSender
import OpenMediaTransport.SoundPath
import OpenMediaTransport.SessionShutdown
import OpenMediaTransport.VideoDecoder
import OpenMediaTransport.SessionHandshake
import OpenMediaTransport.SettingsStore
import OpenMediaTransport.SenderPorts
