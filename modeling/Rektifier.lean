import Rektifier.AttributeJson
import Rektifier.BackfillTermination
import Rektifier.Backoff
import Rektifier.BasePaging
import Rektifier.BatchExact
import Rektifier.CatalogReflects
import Rektifier.ComparisonLaws
import Rektifier.CreatedServes
import Rektifier.DescribeRoundTrip
import Rektifier.KeyConditionLowering
import Rektifier.LifecycleActive
import Rektifier.LifecycleRace
import Rektifier.ListTables
import Rektifier.PassServes
import Rektifier.PublishedFlags
import Rektifier.Redeclared
import Rektifier.RelationRuns
import Rektifier.RemovalWrites
import Rektifier.RetryBudget
import Rektifier.RetryCorrect
import Rektifier.SecretReads
import Rektifier.SetActions
import Rektifier.ShapeCache
import Rektifier.Sigv4Agree
import Rektifier.SparseRows
import Rektifier.StartKeyCorrect
import Rektifier.StorageMap
import Rektifier.SubstitutionExact
import Rektifier.TokenClaims
import Rektifier.TokenExpiry
import Rektifier.TransactSerial
import Rektifier.UniformSchema
import Rektifier.UpdateCorrect
import Rektifier.WriteDivergence
import Rektifier.WritePaths
import Rektifier.WriterRace
