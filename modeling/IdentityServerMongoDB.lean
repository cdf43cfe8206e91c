import IdentityServerMongoDB.GrantSurvival
import IdentityServerMongoDB.GrantMap
import IdentityServerMongoDB.GrantUpsert
import IdentityServerMongoDB.GrantRemoval
import IdentityServerMongoDB.GrantCleanup
import IdentityServerMongoDB.GrantSequential
import IdentityServerMongoDB.TokenCleanupService
import IdentityServerMongoDB.ClientSurvival
import IdentityServerMongoDB.ResourceSurvival
import IdentityServerMongoDB.GrantWrites
import IdentityServerMongoDB.TokenCleanupInterval
import IdentityServerMongoDB.CorsPolicyService
import IdentityServerMongoDB.ResourceLookups
import IdentityServerMongoDB.ClientRoundTrip
import IdentityServerMongoDB.IdentityResourceSurvival
import IdentityServerMongoDB.AdditionOrder
import IdentityServerMongoDB.StoreSettings
import IdentityServerMongoDB.RegistrationRuns
import IdentityServerMongoDB.GrantSerialOrder
import IdentityServerMongoDB.GrantReads
import IdentityServerMongoDB.LiveGrants
import IdentityServerMongoDB.SeedingRuns
import IdentityServerMongoDB.TokenCleanupRuns
import IdentityServerMongoDB.ClientLookup
import IdentityServerMongoDB.RegistrationServices
import IdentityServerMongoDB.ConfigurationCopy
import IdentityServerMongoDB.SeededReads
import IdentityServerMongoDB.GrantIsolation
import IdentityServerMongoDB.GrantProgress
import IdentityServerMongoDB.ConsentSessions
