import SiriusDrive.AppliedVersion
import SiriusDrive.DownloadChannel.ReceiptCap
import SiriusDrive.DownloadChannel.ReceiptCounter
import SiriusDrive.DownloadLimiter.ClientReceipts
import SiriusDrive.DownloadLimiter.Gossip
import SiriusDrive.DownloadLimiter.Restart
import SiriusDrive.DownloadLimiter.SentSize
import SiriusDrive.DownloadLimiter.SyncRcpts
import SiriusDrive.DownloadOpinions.Approvals
import SiriusDrive.FlatDrive.ApprovedDownload
import SiriusDrive.FlatDrive.RecordedApprovals
import SiriusDrive.FlatDrive.RequestOrder
import SiriusDrive.ManualRequests.Interruption
import SiriusDrive.ModifyDriveTask.DataLimit
import SiriusDrive.ModifyDriveTask.InterruptedDownloads
import SiriusDrive.ModifyDriveTask.SandboxResult
import SiriusDrive.RcptSyncronizer.Retries
import SiriusDrive.RcptSyncronizer.Synchronization
import SiriusDrive.RestartData
import SiriusDrive.Sandbox.Balance
import SiriusDrive.Sandbox.Locks
import SiriusDrive.Sandbox.Moves
import SiriusDrive.StreamerSession.Snapshots
import SiriusDrive.VerificationDriveTask.Corruption
import SiriusDrive.VerificationDriveTask.Opinions
import SiriusDrive.ViewerSession.ChunkInfos
import SiriusDrive.ViewerSession.PlaylistVotes
import SiriusDrive.ModifyDriveTask.SameTrees
import SiriusDrive.ModifyDriveTask.SignedSizes
import SiriusDrive.ModifyDriveTask.UploadActions
import SiriusDrive.StreamTask.Finishing
import SiriusDrive.StreamTask.StreamEntries
import SiriusDrive.FsTree.Addresses
import SiriusDrive.FsTree.ChildrenBlocks
import SiriusDrive.FsTree.EvaluatedSizes
import SiriusDrive.FsTree.FolderIterator
import SiriusDrive.FsTree.InPlace
import SiriusDrive.FsTree.Serialization
import SiriusDrive.FsTree.StreamMap
import SiriusDrive.ModifyOpinionController.Scaling
import SiriusDrive.ViewerSession.Playlist
import SiriusDrive.StreamTask.Opinions
import SiriusDrive.FlatDrive.ReceivedOpinions
import SiriusDrive.InterruptedTasks
import SiriusDrive.StreamTask.ChunkInfoMessages
import SiriusDrive.EndpointsManager
import SiriusDrive.Kademlia.PrefixLength
import SiriusDrive.Kademlia.Answers
import SiriusDrive.Kademlia.PeerRequests
import SiriusDrive.UnusedDrives
import SiriusDrive.ActionList.Serialization
import SiriusDrive.ModifyDriveTask.PathInside
import SiriusDrive.PacketIo.SecureSigned
import SiriusDrive.PacketIo.VerifyServer
import SiriusDrive.HttpServer.DocumentRoot
import SiriusDrive.VerificationDriveTask.Shard
import SiriusDrive.FlatDrive.Verifications
import SiriusDrive.ClientSession.Payments
import SiriusDrive.TorrentSession.Removals
