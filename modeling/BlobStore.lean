import BlobStore.Library.Runs
import BlobStore.Library.Local
import BlobStore.BlobFile
import BlobStore.Cluster
import BlobStore.MasterLocks
import BlobStore.MasterPool
import BlobStore.RowLifeCycle
import BlobStore.SpaceUpdates
import BlobStore.WorkerRuns
import BlobStore.ConcurrentSaves
import BlobStore.FrontendGetBlob
import BlobStore.UploadCopies
import BlobStore.Capacity
import BlobStore.ClientRuns
import BlobStore.MasterAnswers
import BlobStore.SpaceCycle
import BlobStore.ReceiveFailures
import BlobStore.ReceivedUploads
import BlobStore.TouchedFiles
import BlobStore.FailedUploads
import BlobStore.Retries
import BlobStore.OrphanFiles
import BlobStore.Registrations
import BlobStore.ChunkIterators
import BlobStore.PlacedSizes
import BlobStore.EscapedErrors
import BlobStore.TempFiles
import BlobStore.Isolation
import BlobStore.Duties
import BlobStore.DutyRequests
import BlobStore.DutyLedger
import BlobStore.Integrity
import BlobStore.Wreckage
import BlobStore.Recovery
import BlobStore.Survival
import BlobStore.Environment
import BlobStore.Deployment
import BlobStore.HasherLeaks
import BlobStore.Endurance
